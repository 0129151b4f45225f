import Stepwise.Proofs.ExprTree
import Stepwise.Proofs.Pasting

/-!
# How high trees are

Evaluation recurses as deep as the tree is high. The reader counts what is open around an
expression, so nesting adds a bounded height. It does not count the operators of a chain or the
subscripts of a target, which it reads in loops: each of them puts a node above what was read
before. These nodes lean to the left, and they are all that makes a tree higher than the bound.

* `Expr.leaning`: how many such nodes stand above one another.
* `Derives.fits`: the height of a derived tree, apart from its leaning.
* `height_of_parse`: the height of what a text is read as.
* `sum_too_high`: a text without any nesting, and a tree that is higher than the bound.
-/

namespace Stepwise.Expr

/-! ## Height and leaning -/

section Measures

variable {e x : Expr} {n : Nat}

/-- A node that the reader puts above what stands to the left of it, without nesting. -/
def leans : Expr → Bool
  | .and .. | .or .. | .arith .. | .index .. => true
  | _ => false

/-- The most steps to the left operands of operators and to the targets of subscripts that there
are on a path from the root. -/
def leaning : Expr → Nat := fold fun e parts =>
  (if e.leans then parts.modifyHead (· + 1) else parts).foldr max 0

theorem leaning_eq (e : Expr) : e.leaning =
    (if e.leans then (e.operands.map leaning).modifyHead (· + 1)
      else e.operands.map leaning).foldr max 0 := fold_eq _ e

theorem leaning_le_iff : e.leaning ≤ n ↔ (∀ x ∈ e.operands, x.leaning ≤ n) ∧
    (e.leans = true → ∀ x ∈ e.operands.head?, x.leaning < n) := by
  rw [leaning_eq, foldr_max_le_iff]
  by_cases hleans : e.leans = true
  · cases e.operands with
    | nil => simp
    | cons y ys =>
      rw [if_pos hleans, List.map_cons, List.modifyHead_cons, List.forall_mem_cons,
        List.forall_mem_map, List.forall_mem_cons]
      simp only [hleans, List.head?_cons, Option.mem_some_iff, forall_eq', forall_const]
      constructor
      · rintro ⟨hy, hys⟩
        exact ⟨⟨Nat.le_of_lt hy, hys⟩, hy⟩
      · rintro ⟨⟨-, hys⟩, hy⟩
        exact ⟨hy, hys⟩
  · simp [hleans]

theorem leaning_le_of_mem (h : x ∈ e.operands) : x.leaning ≤ e.leaning :=
  (leaning_le_iff.mp le_rfl).1 x h

theorem leaning_lt_of_leans {xs : List Expr} (hleans : e.leans = true)
    (h : e.operands = x :: xs) : x.leaning < e.leaning :=
  (leaning_le_iff.mp le_rfl).2 hleans x (by rw [h]; rfl)

/-- Every step to the left is a step down. -/
theorem leaning_lt_height (e : Expr) : e.leaning < e.height := by
  induction e using Expr.induct with
  | step e ih =>
    obtain ⟨n, hn⟩ : ∃ n, e.height = n + 1 := ⟨_, height_eq e⟩
    have hoperands : ∀ x ∈ e.operands, x.leaning < n := fun x hx =>
      Nat.lt_of_lt_of_le (ih x hx) (height_le_iff.mp (Nat.le_of_eq hn) x hx)
    rw [hn, Nat.lt_succ_iff, leaning_le_iff]
    exact ⟨fun x hx => Nat.le_of_lt (hoperands x hx),
      fun _ x hx => hoperands x (List.mem_of_mem_head? hx)⟩

end Measures

/-! ## Derived trees -/

/-- The tree is not higher than the bound, apart from its leaning. -/
def Fits (bound : Nat) (e : Expr) : Prop := e.height ≤ bound + e.leaning

section Fits

variable {bound larger : Nat} {e x y : Expr}

theorem Fits.mono (h : Fits bound e) (hle : bound ≤ larger) : Fits larger e :=
  Nat.le_trans h (Nat.add_le_add_right hle _)

/-- A node is one higher than its operands. -/
theorem Fits.node (h : ∀ x ∈ e.operands, Fits bound x) : Fits (bound + 1) e := by
  unfold Fits
  have hheight : e.height ≤ bound + e.leaning + 1 :=
    height_le_iff.mpr fun x hx =>
      Nat.le_trans (h x hx) (Nat.add_le_add_left (leaning_le_of_mem hx) _)
  omega

/-- A node that leans is as high as its left operand may be. -/
theorem Fits.leaning (hleans : e.leans = true) (hoperands : e.operands = [x, y])
    (hx : Fits (bound + 1) x) (hy : Fits bound y) : Fits (bound + 1) e := by
  have hmem : y ∈ e.operands := by simp [hoperands]
  have hleft := leaning_lt_of_leans hleans hoperands
  have hright := leaning_le_of_mem hmem
  unfold Fits at hx hy ⊢
  have hheight : e.height ≤ bound + e.leaning + 1 := height_le_iff.mpr fun z hz => by
    simp only [hoperands, List.mem_cons, List.not_mem_nil, or_false] at hz
    rcases hz with rfl | rfl
    · omega
    · omega
  omega

end Fits

/-- How many nodes a part may have above one another, besides those that lean, until the next
construct is opened. -/
def Part.rank : Part → Nat
  | .primary | .postfixed | .unary => 1
  | .term => 2
  | .sum | .links => 3
  | .comparison | .not => 4
  | .and => 5
  | .or | .items => 6

/-- The trees that a part derives. -/
def Part.trees : (part : Part) → part.Tree → List Expr
  | .items, es => es
  | .links, ls => ls.map Prod.snd
  | .or, x | .and, x | .not, x | .comparison, x | .sum, x | .term, x | .unary, x
  | .postfixed, x | .primary, x => [x]

theorem Fits.singleton {bound : Nat} {e : Expr} (h : Fits bound e) : ∀ x ∈ [e], Fits bound x :=
  fun _ hx => List.mem_singleton.mp hx ▸ h

/-- By induction on the derivation: a rule that opens a construct has room for all that stands
between two constructs, and any other rule goes up by one rank. -/
theorem Derives.fits {part : Part} {d : Nat} {ts : List Token} {x : part.Tree}
    (h : Derives part d ts x) : ∀ e ∈ part.trees x, Fits (6 * d + part.rank) e := by
  induction h with
  | disjunct _ ih | conjunct _ ih | compared _ ih | alone _ ih | summand _ ih | factor _ ih
  | unsigned _ ih | whole _ ih | plus _ ih | group _ ih =>
    exact fun e he => (ih e he).mono (by simp only [Part.rank]; omega)
  | or _ _ _ ihx ihy | and _ _ _ ihx ihy | sum _ _ _ ihx ihy | product _ _ _ ihx ihy
  | index _ _ ihx ihy =>
    -- The loops: the left part has the rank of the whole, which has one more step to the left.
    have hx := ihx _ (List.mem_singleton_self _)
    have hy := ihy _ (List.mem_singleton_self _)
    refine Fits.singleton (Fits.leaning rfl rfl (hx.mono ?_) (hy.mono ?_))
    · simp only [Part.rank]; omega
    · simp only [Part.rank]; omega
  | not _ _ ih | minus _ ih | call _ _ ih | list _ ih =>
    exact Fits.singleton (Fits.node fun e he => (ih e he).mono (by simp only [Part.rank]; omega))
  | compare _ _ _ ihx ihl =>
    refine Fits.singleton (Fits.node fun e he => ?_)
    rcases List.mem_cons.mp he with rfl | he
    · exact (ihx _ (List.mem_singleton_self _)).mono (by simp only [Part.rank]; omega)
    · exact (ihl e he).mono (by simp only [Part.rank]; omega)
  -- Links and items stand side by side, so the bound is that of each of them.
  | link _ _ _ ihx ihs | item _ _ ihx ihs =>
    rintro e he
    rcases List.mem_cons.mp he with rfl | he
    · exact (ihx _ (List.mem_singleton_self _)).mono (by simp only [Part.rank]; omega)
    · exact (ihs e he).mono (by simp only [Part.rank]; omega)
  | noLinks | noItems => exact fun e he => nomatch he
  | int | float | str | word | var => exact Fits.singleton (Fits.node fun e he => nomatch he)
  | lastItem _ ih => exact ih

/-! ## Texts -/

/-- The nesting adds no more than a bound to the leaning, and the leaning is all that may be without
bound. So a tree is as low as sixteen times the greatest nesting if it does not lean more than ten
times as much. -/
theorem height_of_parse {text : String} {e : Expr} (h : parse text = .ok e) :
    e.leaning < e.height ∧ e.height ≤ 6 * (maxDepth + 1) + e.leaning ∧
      (e.leaning + 6 ≤ 10 * maxDepth → e.height ≤ 16 * maxDepth) := by
  have hfits : Fits (6 * (maxDepth + 1)) e := by
    unfold parse at h
    cases htokens : tokenize text with
    | error fault =>
      rw [htokens] at h
      cases h
    | ok tokens =>
      rw [htokens] at h
      obtain ⟨ts, -, d, hd, hx⟩ := takes_level maxDepth (ofTokens_eq_ok.mp h)
      exact (hx.fits e (List.mem_singleton_self e)).mono (by simp only [Part.rank]; omega)
  have hle : e.height ≤ 6 * (maxDepth + 1) + e.leaning := hfits
  exact ⟨leaning_lt_height e, hle, fun hleaning => by omega⟩

/-- A subscript and an operator lean, a sign and an item are nested. -/
theorem height_of_parse_mixed :
    let text := "-x[0] + [1]"
    let e : Expr := .arith .add (.neg (.index (.var "x") (.lit (.int 0)))) (.list [.lit (.int 1)])
    parse text = .ok e ∧ e.leaning = 2 ∧ e.height = 4 ∧ e.leaning < e.height ∧
      e.height ≤ 6 * (maxDepth + 1) + e.leaning ∧ e.height ≤ 16 * maxDepth := by
  intro text e
  have htokens : tokenize text = .ok [.mark .minus, .name "x", .mark .openBracket, .int 0,
      .mark .closeBracket, .mark .plus, .mark .openBracket, .int 1, .mark .closeBracket] := by
    decide +kernel
  have hparse : parse text = .ok e := by
    rw [parse, htokens]
    rfl
  obtain ⟨hlow, hhigh, hbounded⟩ := height_of_parse hparse
  exact ⟨hparse, rfl, rfl, hlow, hhigh, hbounded (by decide)⟩

/-! ### Sums without parentheses -/

/-- The text `+1+1…` with so many operators. -/
def ones (n : Nat) : String := String.join (List.replicate n "+1")

/-- Its tokens. -/
def oneTokens (n : Nat) : List Token := (List.replicate n [.mark .plus, .int 1]).flatten

/-- A sum of ones, which groups to the left. -/
def oneSum : Nat → Expr
  | 0 => .lit (.int 1)
  | n + 1 => .arith .add (oneSum n) (.lit (.int 1))

theorem height_oneSum (n : Nat) : (oneSum n).height = n + 1 := by
  induction n with
  | zero => rfl
  | succ n ih =>
    have hone : (Expr.lit (.int 1)).height = 1 := rfl
    rw [height_eq, oneSum, operands, List.map_cons, List.map_singleton, ih, hone]
    simp

theorem next_plus (rest : List Char) : next '+' rest = .ok (.mark .plus, rest) := rfl

theorem next_one_plus (rest : List Char) : next '1' ('+' :: rest) = .ok (.int 1, '+' :: rest) := by
  cases rest with
  | nil => rfl
  | cons c cs => rfl

theorem tokens_ones (n : Nat) : tokens ('1' :: (ones n).toList) = .ok (.int 1 :: oneTokens n) := by
  induction n with
  | zero =>
    have hend : tokens [] = .ok [] := by
      rw [tokens]
      rfl
    have hone : next '1' [] = .ok (.int 1, []) := rfl
    show tokens ['1'] = _
    rw [tokens_cons (by decide) hone, hend]
    rfl
  | succ n ih =>
    have hones : (ones (n + 1)).toList = '+' :: '1' :: (ones n).toList := by
      rw [ones, List.replicate_succ, String.join_cons, String.toList_append]
      rfl
    rw [hones, tokens_cons (by decide) (next_one_plus _), tokens_cons (by decide) (next_plus _),
      ih]
    rfl

theorem derives_oneSum (n : Nat) : Derives .sum 0 (.int 1 :: oneTokens n) (oneSum n) := by
  have hone : Derives .unary 0 [.int 1] (.lit (.int 1)) := .unsigned (.whole (.int 1))
  induction n with
  | zero => exact .summand (.factor hone)
  | succ n ih =>
    have hones : oneTokens (n + 1) = oneTokens n ++ [.mark .plus, .int 1] := by
      rw [oneTokens, List.replicate_succ', List.flatten_append]
      rfl
    rw [hones]
    exact .sum ih (by decide) (.factor hone)

/-- Nothing is nested in a sum, whose tree is as high as it is long. -/
theorem parse_ones (n : Nat) : parse ("1" ++ ones n) = .ok (oneSum n) := by
  have hderives : Derives .or 0 (.int 1 :: oneTokens n) (oneSum n) :=
    .disjunct (.conjunct (.compared (.alone (derives_oneSum n))))
  have hread : ofTokens (.int 1 :: oneTokens n) = .ok (oneSum n) :=
    ofTokens_eq_ok.mpr (hderives.anything_eq_ok (Nat.zero_le _))
  have htokens : tokenize ("1" ++ ones n) = .ok (.int 1 :: oneTokens n) := by
    rw [tokenize, String.toList_append]
    exact tokens_ones n
  rw [parse, htokens]
  exact hread

/-- Of 1024 operators without any nesting comes a tree that is higher than sixteen times the
greatest nesting. -/
theorem sum_too_high : ∃ e, parse ("1" ++ ones 1024) = .ok e ∧ 16 * maxDepth < e.height := by
  refine ⟨oneSum 1024, parse_ones 1024, ?_⟩
  rw [height_oneSum]
  decide

end Stepwise.Expr
