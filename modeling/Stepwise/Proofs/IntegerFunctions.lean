import Stepwise.Proofs.Rounding
import Stepwise.Proofs.WordArithmetic

/-!
# Functions that give integers

`int` and `round` of an integer. `int` takes a signed word as it is and goes by way of the nearest
double for what is larger; `round` goes by way of the nearest double for every number.

* `int_and_round`: what both give, and which integers `round` keeps.
* `round_loses_digits`: the least integer that `round` changes, and one that `int` changes.
-/

namespace Stepwise.Expr

open Double (nearestInt unit)

section

variable {store : Store} {e : Expr} {v : Value} {n : Int}

theorem eval_single (hvalue : eval store e = .ok v) (function : String) :
    eval store (.call function [e]) = lift (apply function [v]) := by
  rw [eval, evalAll, hvalue, evalAll]
  rfl

/-- An integer takes part as a word or as the nearest double, and both are the same double. -/
theorem ofValue?_int (n : Int) :
    ∃ x, Num.ofValue? (.int n) = some x ∧ x.toFloat = Float.ofInt n := by
  rw [Num.ofValue?]
  split
  · next h =>
    have hrange := Num.inRange_iff.mp h
    refine ⟨_, rfl, ?_⟩
    rw [Num.toFloat, Int64.toInt_ofInt_of_le hrange.1 hrange.2]
  · exact ⟨_, rfl, rfl⟩

theorem toInt_int (hlow : -2 ^ 63 ≤ n) (hhigh : n < 2 ^ 64) :
    toInt (.int n) = .ok (min n (2 ^ 63 - 1)) := by
  unfold toInt
  dsimp only
  rw [Num.ofValue?]
  by_cases h : n < 2 ^ 63
  · rw [if_pos (Num.inRange_iff.mpr ⟨hlow, h⟩), min_eq_left (by omega)]
    exact congrArg Except.ok (Int64.toInt_ofInt_of_le hlow h)
  · -- The nearest double of a number beyond the words is beyond them too.
    rw [if_neg (mt Num.inRange_iff.mp fun hrange => h hrange.2), min_eq_right (by omega)]
    have hge := Double.nearestInt_ge (Int.not_lt.mp h)
    dsimp only
    rw [Double.toInt64_ofInt hlow hhigh, min_eq_right (by omega)]

theorem roundToInt_int (hlow : -2 ^ 63 ≤ n) (hhigh : n < 2 ^ 64) :
    roundToInt (.int n) = .ok (.int (min (nearestInt n) (2 ^ 63 - 1))) := by
  obtain ⟨x, hx, hfloat⟩ := ofValue?_int n
  rw [roundToInt, hx]
  dsimp only
  rw [hfloat, Double.toInt64_roundHalfEven_ofInt hlow hhigh]

theorem eval_int (hvalue : eval store e = .ok (.int n)) (hlow : -2 ^ 63 ≤ n)
    (hhigh : n < 2 ^ 64) :
    eval store (.call "int" [e]) = .ok (.int (min n (2 ^ 63 - 1))) := by
  rw [eval_single hvalue]
  show lift ((toInt (.int n)).map Value.int) = _
  rw [toInt_int hlow hhigh]
  rfl

theorem eval_round (hvalue : eval store e = .ok (.int n)) (hlow : -2 ^ 63 ≤ n)
    (hhigh : n < 2 ^ 64) :
    eval store (.call "round" [e]) = .ok (.int (min (nearestInt n) (2 ^ 63 - 1))) := by
  rw [eval_single hvalue]
  show lift (roundToInt (.int n)) = _
  rw [roundToInt_int hlow hhigh]
  rfl

/-- `int` gives a signed word itself, and the greatest one for what is larger. `round` gives the
nearest integer of 53 binary digits, or the greatest signed word, so that it keeps an integer
exactly if it is a signed word whose digits fit, or the greatest. -/
theorem int_and_round (hvalue : eval store e = .ok (.int n)) (hlow : -2 ^ 63 ≤ n)
    (hhigh : n < 2 ^ 64) :
    eval store (.call "int" [e]) = .ok (.int (min n (2 ^ 63 - 1))) ∧
      eval store (.call "round" [e]) = .ok (.int (min (nearestInt n) (2 ^ 63 - 1))) ∧
      2 * |nearestInt n - n| ≤ unit n.natAbs ∧
      (eval store (.call "round" [e]) = .ok (.int n) ↔
        n = 2 ^ 63 - 1 ∨ n < 2 ^ 63 ∧ (unit n.natAbs : Int) ∣ n) := by
  have hround := eval_round hvalue hlow hhigh
  refine ⟨eval_int hvalue hlow hhigh, hround, Double.nearestInt_close n, ?_⟩
  rw [hround, Except.ok.injEq, Value.int.injEq, ← Double.nearestInt_eq_self_iff]
  constructor
  · omega
  · rintro (rfl | ⟨hword, hsame⟩)
    · decide
    · omega

end

/-- The least positive integer whose digits do not fit. -/
theorem int_and_round_odd :
    let store : Store := [("x", .int 9007199254740993)]
    let x : Expr := .var "x"
    eval store x = .ok (.int 9007199254740993) ∧
      eval store (.call "int" [x]) = .ok (.int 9007199254740993) ∧
      eval store (.call "round" [x]) = .ok (.int 9007199254740992) ∧
      eval store (.call "round" [x]) ≠ .ok (.int 9007199254740993) := by
  intro store x
  have hvalue : eval store x = .ok (.int 9007199254740993) := by
    rw [eval]
    rfl
  obtain ⟨hint, hround, -, hkeeps⟩ := int_and_round hvalue (by decide) (by decide)
  have hnearest : nearestInt 9007199254740993 = 9007199254740992 := by decide
  rw [hnearest] at hround
  exact ⟨hvalue, hint, hround, fun h => absurd (hkeeps.mp h) (by decide)⟩

/-- `round` changes a signed word and `int` what is larger than one, and neither fails. -/
theorem round_loses_digits :
    evaluate "round(x)" [("x", .int 9007199254740993)] = .ok (.int 9007199254740992) ∧
      evaluate "int(x)" [("x", .int 9223372036854775808)] = .ok (.int 9223372036854775807) := by
  have hround : evaluate "round(x)" [("x", .int 9007199254740993)] =
      eval [("x", .int 9007199254740993)] (.call "round" [.var "x"]) := by
    have htokens : tokenize "round(x)" =
        .ok [.name "round", .mark .openParen, .name "x", .mark .closeParen] := by decide +kernel
    refine evaluate_of_read (by decide +kernel) ?_
    rw [read, parse, htokens]
    rfl
  have hint : evaluate "int(x)" [("x", .int 9223372036854775808)] =
      eval [("x", .int 9223372036854775808)] (.call "int" [.var "x"]) := by
    have htokens : tokenize "int(x)" =
        .ok [.name "int", .mark .openParen, .name "x", .mark .closeParen] := by decide +kernel
    refine evaluate_of_read (by decide +kernel) ?_
    rw [read, parse, htokens]
    rfl
  have hx (n : Int) : eval [("x", .int n)] (.var "x") = .ok (.int n) := by
    rw [eval]
    rfl
  rw [hround, hint, eval_round (hx _) (by decide) (by decide),
    eval_int (hx _) (by decide) (by decide)]
  exact ⟨rfl, rfl⟩

end Stepwise.Expr
