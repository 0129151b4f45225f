import Mathlib.Data.Rat.Floor
import Mathlib.Algebra.Order.Group.Unbundled.Int
import Stepwise.Expr.Eval
import Stepwise.Proofs.Rounding

/-!
# Integers are exact or refused

Sums, differences and products of signed words are the mathematical ones, or an overflow. The
division that rounds down is made of the one toward zero and a correction by one; for the two words
that divide, neither a word operation nor the correction leaves the range of words, so the result is
the floor and what it leaves.

* `Num.Unwrapped`: the operations of a division are those of integers.
* `Num.Floored`: quotient rounded down and remainder.
* `integers_exact`: the operators on values that count as words.
-/

namespace Stepwise

/-- The integer a value counts as in arithmetic, if it has 64 bits: truths count as 0 and 1. -/
inductive Value.CountsAs : Value → Int → Prop
  | int {n : Int} (hlow : -2 ^ 63 ≤ n) (hhigh : n < 2 ^ 63) : CountsAs (.int n) n
  | bool (b : Bool) : CountsAs (.bool b) (if b then 1 else 0)

namespace Expr

namespace Num

theorem inRange_iff {n : Int} : inRange n = true ↔ -2 ^ 63 ≤ n ∧ n < 2 ^ 63 := by
  simp only [inRange, Bool.and_eq_true, decide_eq_true_eq, Nat.pow_eq]
  norm_cast

/-! ## Division of words -/

variable {a b : Int64}

theorem divisible_iff :
    divisible a b = true ↔ b.toInt ≠ 0 ∧ ¬(a.toInt = -2 ^ 63 ∧ b.toInt = -1) := by
  have hzero : b = 0 ↔ b.toInt = 0 := Int64.toInt_inj.symm
  have hleast : a = Int64.minValue ↔ a.toInt = -2 ^ 63 := Int64.toInt_inj.symm
  have hminus : b = -1 ↔ b.toInt = -1 := Int64.toInt_inj.symm
  simp only [divisible, Bool.and_eq_true, bne_iff_ne, Bool.not_eq_true', Bool.and_eq_false_iff,
    beq_eq_false_iff_ne, ne_eq, hzero, hleast, hminus, not_and_or]

theorem opposed_iff : opposed a b = true ↔ ¬(a.toInt < 0 ↔ b.toInt < 0) := by
  have h (c : Int64) : c < 0 ↔ c.toInt < 0 := Int64.lt_iff_toInt_lt
  simp only [opposed, bne_iff_ne, ne_eq, decide_eq_decide, h]

theorem mod_ne_zero_iff : (a % b != 0) = true ↔ a.toInt.tmod b.toInt ≠ 0 := by
  rw [bne_iff_ne, ne_eq, ← Int64.toInt_inj, Int64.toInt_mod]
  rfl

/-- The word operations of a division are those of integers. -/
structure Unwrapped (a b : Int64) : Prop where
  quotient : (a / b).toInt = a.toInt.tdiv b.toInt
  remainder : (a % b).toInt = a.toInt.tmod b.toInt
  lowered : (a % b != 0 && opposed a b) = true → (a / b - 1).toInt = (a / b).toInt - 1
  raised : (a % b != 0 && opposed (a % b) b) = true → (a % b + b).toInt = (a % b).toInt + b.toInt

theorem toInt_sub_of_inRange (h : -2 ^ 63 ≤ a.toInt - b.toInt ∧ a.toInt - b.toInt < 2 ^ 63) :
    (a - b).toInt = a.toInt - b.toInt := by
  rw [Int64.toInt_sub]
  exact Int.bmod_eq_of_le (by omega) (by omega)

theorem toInt_add_of_inRange (h : -2 ^ 63 ≤ a.toInt + b.toInt ∧ a.toInt + b.toInt < 2 ^ 63) :
    (a + b).toInt = a.toInt + b.toInt := by
  rw [Int64.toInt_add]
  exact Int.bmod_eq_of_le (by omega) (by omega)

/-- Where something is left the divisor is neither one nor minus one, so the quotient is no more
than half of the dividend; and a sum of opposite signs is between the two. -/
theorem unwrapped (h : divisible a b = true) : Unwrapped a b := by
  obtain ⟨hb, hrange⟩ := divisible_iff.mp h
  have hmod := Int64.toInt_mod a b
  have hdiv : (a / b).toInt = a.toInt.tdiv b.toInt := by
    by_cases hleast : a = Int64.minValue
    · refine Int64.toInt_div_of_ne_right a b fun hminus => hrange ?_
      rw [hleast, hminus]
      exact ⟨rfl, rfl⟩
    · exact Int64.toInt_div_of_ne_left a b hleast
  have halow := a.le_toInt
  have hahigh := a.toInt_lt
  have hblow := b.le_toInt
  have hbhigh := b.toInt_lt
  refine ⟨hdiv, hmod, fun hlowered => ?_, fun hraised => ?_⟩
  · rw [Bool.and_eq_true, mod_ne_zero_iff] at hlowered
    have hb2 : 2 ≤ b.toInt.natAbs := by
      by_contra hlt
      have hunit : b.toInt.natAbs = 1 := by omega
      refine hlowered.1 (Int.natAbs_eq_zero.mp ?_)
      rw [Int.natAbs_tmod, hunit, Nat.mod_one]
    have hhalf : (a.toInt.tdiv b.toInt).natAbs ≤ a.toInt.natAbs / 2 := by
      rw [Int.natAbs_tdiv]
      exact Nat.div_le_div_left hb2 (by decide)
    refine toInt_sub_of_inRange ?_
    rw [hdiv]
    show -2 ^ 63 ≤ _ - (1 : Int) ∧ _ - (1 : Int) < 2 ^ 63
    omega
  · rw [Bool.and_eq_true, opposed_iff] at hraised
    have hlt : (a % b).toInt.natAbs < b.toInt.natAbs := by
      rw [hmod, Int.natAbs_tmod]
      exact Nat.mod_lt _ (by omega)
    exact toInt_add_of_inRange (by omega)

/-- `q` is a quotient rounded down, and `r` what it leaves: nothing, or less than the divisor and
with its sign. -/
structure Floored (m n q r : Int) : Prop where
  eq : m = n * q + r
  sign : r = 0 ∨ (r < 0 ↔ n < 0)
  lt : r.natAbs < n.natAbs

theorem Floored.eq_floor {m n q r : Int} (h : Floored m n q r) : q = ⌊(m / n : ℚ)⌋ := by
  obtain ⟨heq, hsign, hlt⟩ := h
  have hn : n ≠ 0 := by omega
  have hquotient : (m / n : ℚ) = q + r / n := by
    have hn' : (n : ℚ) ≠ 0 := mod_cast hn
    rw [heq]
    push_cast
    field_simp
  symm
  rw [Int.floor_eq_iff, hquotient, le_add_iff_nonneg_right, add_lt_add_iff_left]
  rcases hn.lt_or_gt with hneg | hpos
  · have hr : r ≤ 0 := by omega
    have hrn : n < r := by omega
    exact ⟨div_nonneg_of_nonpos (mod_cast hr) (mod_cast hneg.le),
      (div_lt_one_of_neg (mod_cast hneg)).mpr (mod_cast hrn)⟩
  · have hr : 0 ≤ r := by omega
    have hrn : r < n := by omega
    exact ⟨div_nonneg (mod_cast hr) (mod_cast hpos.le),
      (div_lt_one (mod_cast hpos)).mpr (mod_cast hrn)⟩

/-- Rounding the quotient toward zero down is taking one from it and adding the divisor to what is
left. The one correction looks at the sign of the dividend and the other at that of what is left,
but these are the same where something is left. -/
theorem floored (h : divisible a b = true) :
    Floored a.toInt b.toInt
      (if a % b != 0 && opposed a b then a / b - 1 else a / b).toInt
      (if a % b != 0 && opposed (a % b) b then a % b + b else a % b).toInt := by
  obtain ⟨hdiv, hmod, hlowered, hraised⟩ := unwrapped h
  have hb : b.toInt ≠ 0 := (divisible_iff.mp h).1
  have hsum : b.toInt * a.toInt.tdiv b.toInt + a.toInt.tmod b.toInt = a.toInt :=
    Int.mul_tdiv_add_tmod a.toInt b.toInt
  have hlt : (a.toInt.tmod b.toInt).natAbs < b.toInt.natAbs := by
    rw [Int.natAbs_tmod]
    exact Nat.mod_lt _ (by omega)
  have hsame : a.toInt.tmod b.toInt ≠ 0 → (a.toInt < 0 ↔ a.toInt.tmod b.toInt < 0) := by
    have hpos : 0 ≤ a.toInt → 0 ≤ a.toInt.tmod b.toInt := Int.tmod_nonneg _
    have hneg : 0 ≤ -a.toInt → 0 ≤ (-a.toInt).tmod b.toInt := Int.tmod_nonneg _
    rw [Int.neg_tmod] at hneg
    omega
  have hcorrected : (a % b != 0 && opposed a b) = (a % b != 0 && opposed (a % b) b) := by
    rw [Bool.eq_iff_iff, Bool.and_eq_true, Bool.and_eq_true, mod_ne_zero_iff, opposed_iff,
      opposed_iff, hmod]
    exact and_congr_right fun hrest => by rw [hsame hrest]
  rw [← hcorrected] at hraised ⊢
  by_cases hc : (a % b != 0 && opposed a b) = true
  · rw [if_pos hc, if_pos hc, hlowered hc, hraised hc, hdiv, hmod]
    rw [hcorrected, Bool.and_eq_true, mod_ne_zero_iff, opposed_iff, hmod] at hc
    refine ⟨?_, by omega, by omega⟩
    rw [Int.mul_sub, Int.mul_one]
    omega
  · rw [if_neg hc, if_neg hc, hdiv, hmod]
    rw [hcorrected, Bool.and_eq_true, mod_ne_zero_iff, opposed_iff, hmod] at hc
    exact ⟨hsum.symm, by omega, hlt⟩

end Num

/-! ## Operators on values -/

section Values

variable {store : Store} {l r : Expr} {a b : Value} {m n : Int}

/-- The integer, or an overflow. -/
def exactly (n : Int) : Except Cause Value :=
  if -2 ^ 63 ≤ n ∧ n < 2 ^ 63 then .ok (.int n) else .error (.expression (.eval .overflow))

theorem lift_checked (n : Int) : lift ((Num.checked n).bind Num.toValue) = exactly n := by
  by_cases h : -2 ^ 63 ≤ n ∧ n < 2 ^ 63
  · rw [exactly, if_pos h, Num.checked, if_pos (Num.inRange_iff.mpr h)]
    show Except.ok (Value.int (Int64.ofInt n).toInt) = _
    rw [Int64.toInt_ofInt_of_le h.1 h.2]
  · rw [exactly, if_neg h, Num.checked, if_neg (mt Num.inRange_iff.mp h)]
    rfl

theorem exists_word (h : a.CountsAs m) :
    ∃ x : Int64, x.toInt = m ∧ Num.ofValue? a = some (.int x) := by
  cases h with
  | int hlow hhigh =>
    refine ⟨.ofInt m, Int64.toInt_ofInt_of_le hlow hhigh, ?_⟩
    rw [Num.ofValue?, if_pos (Num.inRange_iff.mpr ⟨hlow, hhigh⟩)]
  | bool b =>
    refine ⟨if b then 1 else 0, ?_, rfl⟩
    cases b <;> rfl

theorem isSequence_eq_false {x : Num} (h : Num.ofValue? a = some x) : isSequence a = false := by
  cases a with
  | str s => cases h
  | list items => cases h
  | _ => rfl

theorem eval_binary (hl : eval store l = .ok a) (hr : eval store r = .ok b) (op : Arith) :
    eval store (.arith op l r) = lift (binary op a b) := by
  rw [eval, hl, hr]
  rfl

/-- Numbers are neither joined nor repeated. -/
theorem binary_eq_numeric {x y : Num} (ha : Num.ofValue? a = some x) (hb : Num.ofValue? b = some y)
    (op : Arith) : binary op a b = numeric op a b := by
  have hseq := isSequence_eq_false ha
  cases op with
  | mul =>
    show (if isSequence a then _ else if isSequence b then _ else _) = _
    rw [hseq, isSequence_eq_false hb]
    rfl
  | add =>
    cases a with
    | str s => cases ha
    | list items => cases ha
    | _ => rfl
  | _ => rfl

variable {x y : Int64}

/-- The divisor is tested as a double. -/
theorem arith_int (op : Arith) : Num.arith op (.int x) (.int y) =
    if Num.divides op = true ∧ y.toInt = 0 then .error .divisionByZero else Num.integer op x y := by
  have hzero : ((Num.int y).toFloat == 0) = decide (y.toInt = 0) :=
    Double.ofInt_beq_zero y.le_toInt y.toInt_lt
  rw [Num.arith, hzero]
  simp only [Bool.and_eq_true, decide_eq_true_eq]

theorem eval_arith (hl : eval store l = .ok a) (hr : eval store r = .ok b)
    (ha : Num.ofValue? a = some (.int x)) (hb : Num.ofValue? b = some (.int y)) (op : Arith) :
    eval store (.arith op l r) = lift ((Num.arith op (.int x) (.int y)).bind Num.toValue) := by
  rw [eval_binary hl hr, binary_eq_numeric ha hb, numeric, ha, hb]
  dsimp only
  cases Num.arith op (.int x) (.int y) <;> rfl

theorem eval_undivided (hl : eval store l = .ok a) (hr : eval store r = .ok b)
    (ha : Num.ofValue? a = some (.int x)) (hb : Num.ofValue? b = some (.int y)) {op : Arith}
    (hop : Num.divides op = false) {k : Int} (hk : Num.integer op x y = Num.checked k) :
    eval store (.arith op l r) = exactly k := by
  rw [eval_arith hl hr ha hb, arith_int, if_neg (by rw [hop]; simp), hk, lift_checked]

/-- The integer, unless `m` cannot be divided by `n` in 64 bits. -/
def divided (m n k : Int) : Except Cause Value :=
  if n = 0 then .error (.expression (.eval .divisionByZero))
  else if m = -2 ^ 63 ∧ n = -1 then .error (.expression (.eval .overflow))
  else .ok (.int k)

theorem eval_divided (hl : eval store l = .ok a) (hr : eval store r = .ok b)
    (ha : Num.ofValue? a = some (.int x)) (hb : Num.ofValue? b = some (.int y)) {op : Arith}
    (hop : Num.divides op = true) {z : Int64}
    (hz : Num.integer op x y = if Num.divisible x y then .ok (.int z) else .error .overflow) :
    eval store (.arith op l r) = divided x.toInt y.toInt z.toInt := by
  rw [eval_arith hl hr ha hb, arith_int, hz, divided]
  by_cases hzero : y.toInt = 0
  · rw [if_pos ⟨hop, hzero⟩, if_pos hzero]
    rfl
  · rw [if_neg fun h => hzero h.2, if_neg hzero]
    by_cases hrange : x.toInt = -2 ^ 63 ∧ y.toInt = -1
    · rw [if_pos hrange, if_neg fun h => (Num.divisible_iff.mp h).2 hrange]
      rfl
    · rw [if_neg hrange, if_pos (Num.divisible_iff.mpr ⟨hzero, hrange⟩)]
      rfl

theorem integer_floorDiv (x y : Int64) : Num.integer .floorDiv x y =
    if Num.divisible x y then
      .ok (.int (if x % y != 0 && Num.opposed x y then x / y - 1 else x / y))
    else .error .overflow := by
  rw [Num.integer, Num.floorDiv, Num.quotient?]
  cases Num.divisible x y <;> rfl

theorem integer_mod (x y : Int64) : Num.integer .mod x y =
    if Num.divisible x y then
      .ok (.int (if x % y != 0 && Num.opposed (x % y) y then x % y + y else x % y))
    else .error .overflow := by
  rw [Num.integer, Num.floorMod, Num.remainder?]
  cases Num.divisible x y <;> rfl

/-- Nothing is known of the integer where it is not the result. -/
theorem divided_refused {m n : Int} (h : n ≠ 0 → m = -2 ^ 63 ∧ n = -1) (k k' : Int) :
    divided m n k = divided m n k' := by
  by_cases hzero : n = 0
  · rw [divided, divided, if_pos hzero, if_pos hzero]
  · rw [divided, divided, if_neg hzero, if_neg hzero, if_pos (h hzero), if_pos (h hzero)]

theorem eval_floorDiv_mod (hl : eval store l = .ok a) (hr : eval store r = .ok b)
    (ha : Num.ofValue? a = some (.int x)) (hb : Num.ofValue? b = some (.int y)) :
    ∃ rest,
      eval store (.arith .floorDiv l r) =
        divided x.toInt y.toInt ⌊(x.toInt / y.toInt : ℚ)⌋ ∧
      eval store (.arith .mod l r) = divided x.toInt y.toInt rest ∧
      (y.toInt ≠ 0 → ¬(x.toInt = -2 ^ 63 ∧ y.toInt = -1) →
        Num.Floored x.toInt y.toInt ⌊(x.toInt / y.toInt : ℚ)⌋ rest) := by
  have hfloorDiv := eval_divided hl hr ha hb rfl (integer_floorDiv x y)
  have hmod := eval_divided hl hr ha hb rfl (integer_mod x y)
  by_cases h : Num.divisible x y = true
  · have hfloored := Num.floored h
    rw [hfloored.eq_floor] at hfloorDiv hfloored
    exact ⟨_, hfloorDiv, hmod, fun _ _ => hfloored⟩
  · rw [Num.divisible_iff, not_and_not_right] at h
    exact ⟨_, hfloorDiv.trans (divided_refused h _ _), hmod, fun hzero hrange =>
      absurd (h hzero) hrange⟩

theorem eval_neg_word (hl : eval store l = .ok a) (ha : Num.ofValue? a = some (.int x)) :
    eval store (.neg l) = exactly (-x.toInt) := by
  rw [eval, hl]
  simp only [bind, Except.bind, ha]
  exact lift_checked _

theorem eval_abs (hl : eval store l = .ok a) (ha : Num.ofValue? a = some (.int x)) :
    eval store (.call "abs" [l]) = exactly |x.toInt| := by
  rw [eval, evalAll, hl, evalAll]
  show lift (absolute a) = _
  rw [absolute, ha, Int.abs_eq_natAbs]
  exact lift_checked _

/-- Where two expressions come to words or truths, sums, differences, products, negations and
absolute values are the integers they are in mathematics, or an overflow where these have more than
64 bits. A quotient is rounded down, what it leaves is zero or has the sign of the divisor, and both
fail for no other words than those that cannot be divided. No word operation of a division leaves
the range of words. -/
theorem integers_exact (hl : eval store l = .ok a) (hr : eval store r = .ok b)
    (ha : a.CountsAs m) (hb : b.CountsAs n) :
    eval store (.arith .add l r) = exactly (m + n) ∧
    eval store (.arith .sub l r) = exactly (m - n) ∧
    eval store (.arith .mul l r) = exactly (m * n) ∧
    eval store (.neg l) = exactly (-m) ∧
    eval store (.call "abs" [l]) = exactly |m| ∧
    (∃ rest,
      eval store (.arith .floorDiv l r) = divided m n ⌊(m / n : ℚ)⌋ ∧
      eval store (.arith .mod l r) = divided m n rest ∧
      (n ≠ 0 → ¬(m = -2 ^ 63 ∧ n = -1) → Num.Floored m n ⌊(m / n : ℚ)⌋ rest)) ∧
    ∀ x y : Int64, x.toInt = m → y.toInt = n → Num.divisible x y = true → Num.Unwrapped x y := by
  obtain ⟨x, rfl, hx⟩ := exists_word ha
  obtain ⟨y, rfl, hy⟩ := exists_word hb
  exact ⟨eval_undivided hl hr hx hy rfl rfl, eval_undivided hl hr hx hy rfl rfl,
    eval_undivided hl hr hx hy rfl rfl, eval_neg_word hl hx, eval_abs hl hx,
    eval_floorDiv_mod hl hr hx hy, fun x y _ _ => Num.unwrapped⟩

/-- The least word, whose difference and absolute value need one bit more, divided by three. -/
theorem integers_exact_least :
    let store : Store := [("least", .int (-9223372036854775808)), ("three", .int 3)]
    let least : Expr := .var "least"
    let three : Expr := .var "three"
    (Value.int (-9223372036854775808)).CountsAs (-9223372036854775808) ∧
      (Value.int 3).CountsAs 3 ∧
      eval store (.arith .add least three) = .ok (.int (-9223372036854775805)) ∧
      eval store (.arith .sub least three) = .error (.expression (.eval .overflow)) ∧
      eval store (.call "abs" [least]) = .error (.expression (.eval .overflow)) ∧
      eval store (.arith .floorDiv least three) = .ok (.int (-3074457345618258603)) ∧
      eval store (.arith .mod least three) = .ok (.int 1) := by
  intro store least three
  have hleast : (Value.int (-9223372036854775808)).CountsAs (-9223372036854775808) :=
    .int (by decide) (by decide)
  have hthree : (Value.int 3).CountsAs 3 := .int (by decide) (by decide)
  have hvar : eval store least = .ok (.int (-9223372036854775808)) := by
    rw [eval]
    rfl
  have hvar' : eval store three = .ok (.int 3) := by
    rw [eval]
    rfl
  obtain ⟨hadd, hsub, -, -, habs, ⟨rest, hdiv, hmod, hfloored⟩, -⟩ :=
    integers_exact hvar hvar' hleast hthree
  have hfloor : ⌊((-9223372036854775808 : Int) / (3 : Int) : ℚ)⌋ = -3074457345618258603 := by
    norm_num
  rw [hfloor] at hdiv hfloored
  obtain rfl : rest = 1 := by
    have heq := (hfloored (by decide) (by decide)).eq
    omega
  exact ⟨hleast, hthree, hadd, hsub, habs, hdiv, hmod⟩

end Values

end Expr

end Stepwise
