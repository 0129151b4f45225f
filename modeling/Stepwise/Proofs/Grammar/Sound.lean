import Stepwise.Proofs.Except
import Stepwise.Proofs.Grammar

/-!
# What is read is in the grammar

A reader that succeeds has taken a row of tokens that derives its tree, and the nesting of the
derivation is at most the depth the reader had left. The loops keep what they have taken so far,
so a chain grows to the left as its derivation does.

* `Takes`: what a reader takes belongs to a language.
* `takes_level`: the readers of a level take derivations that fit in it, by induction on the depth.
* `derives_of_ofTokens`: tokens that are read whole derive their tree.
-/

namespace Stepwise.Expr

/-- Tokens derive a tree at a nesting of at most the bound. -/
def DerivesIn (bound : Nat) (part : Part) (ts : List Token) (x : part.Tree) : Prop :=
  ∃ d ≤ bound, Derives part d ts x

/-- The tokens a reader takes and what it makes of them belong together. -/
def Takes {α : Type} (read : List Token → Except ParseFault (α × List Token))
    (Language : List Token → α → Prop) : Prop :=
  ∀ ⦃tokens x rest⦄, read tokens = .ok (x, rest) → ∃ ts, tokens = ts ++ rest ∧ Language ts x

theorem expect_eq_ok {mark : Mark} {tokens rest : List Token} :
    expect mark tokens = .ok rest ↔ tokens = .mark mark :: rest := by
  unfold expect
  split
  · split
    · next m _ h => subst h; simp
    · next m _ h => simp [h]
  · next h => simp; rintro rfl; exact absurd rfl (h _)
  · simp

/-! ## Chains -/

section Chains

variable {operand : Parser} {link : Token → Option (Expr → Expr → Expr)}
variable {Operand Chain : List Token → Expr → Prop}

/-- A chain goes on from what it has taken to what it takes in all. -/
theorem chainFrom_takes (ho : Takes operand Operand)
    (hjoin : ∀ ⦃ts x t join ts' y⦄, Chain ts x → link t = some join → Operand ts' y →
      Chain (ts ++ t :: ts') (join x y))
    {fuel : Nat} {taken tokens rest : List Token} {left x : Expr} (hl : Chain taken left)
    (h : chainFrom operand link fuel left tokens = .ok (x, rest)) :
    ∃ ts, tokens = ts ++ rest ∧ Chain (taken ++ ts) x := by
  -- By induction on the fuel: with each link and operand read, a longer chain has been taken.
  induction fuel generalizing taken left tokens with
  | zero =>
    cases h
    exact ⟨[], rfl, by simpa using hl⟩
  | succ fuel ih =>
    cases tokens with
    | nil =>
      cases h
      exact ⟨[], rfl, by simpa using hl⟩
    | cons t tokens =>
      rw [chainFrom] at h
      split at h
      · cases h
        exact ⟨[], rfl, by simpa using hl⟩
      · next join hj =>
        split at h
        · cases h
        · next y tokens' hy =>
          obtain ⟨ts', rfl, hy'⟩ := ho hy
          obtain ⟨ts, rfl, hx⟩ := ih (hjoin hl hj hy') h
          exact ⟨t :: ts' ++ ts, by simp, by simpa using hx⟩

theorem chain_takes (ho : Takes operand Operand) (hfirst : ∀ ⦃ts x⦄, Operand ts x → Chain ts x)
    (hjoin : ∀ ⦃ts x t join ts' y⦄, Chain ts x → link t = some join → Operand ts' y →
      Chain (ts ++ t :: ts') (join x y)) :
    Takes (chain operand link) Chain := by
  intro tokens x rest h
  unfold chain at h
  split at h
  · cases h
  · next first tokens' hf =>
    obtain ⟨ts, rfl, hf'⟩ := ho hf
    obtain ⟨ts', rfl, hx⟩ := chainFrom_takes ho hjoin (hfirst hf') h
    exact ⟨ts ++ ts', by simp, hx⟩

end Chains

/-! ## The readers of a level -/

section Levels

/-- What the readers of a level take fits into its depth. -/
structure Level.Sound (level : Level) (depth : Nat) : Prop where
  anything : Takes level.anything (DerivesIn depth .or)
  negated : Takes level.negated (DerivesIn depth .not)
  signed : Takes level.signed (DerivesIn depth .unary)

variable {depth : Nat}

/-- The level below, if there is one, is sound for one depth less. -/
def Below (inner : Option Level) (depth : Nat) : Prop :=
  ∀ level, inner = some level → ∃ below, depth = below + 1 ∧ level.Sound below

variable {inner : Option Level}

theorem deeper_eq_ok {part : Level → Parser} {tokens rest : List Token} {x : Expr}
    (h : deeper inner part tokens = .ok (x, rest)) :
    ∃ level, inner = some level ∧ part level tokens = .ok (x, rest) := by
  unfold deeper at h
  split at h
  · next level => exact ⟨level, rfl, h⟩
  · cases h

/-- What is read one construct deeper may nest one less. -/
theorem deeper_takes (hb : Below inner depth) {part : Level → Parser}
    {Language : Nat → List Token → Expr → Prop}
    (hpart : ∀ level below, level.Sound below → Takes (part level) (Language below)) :
    Takes (deeper inner part) (fun ts x => ∃ below, depth = below + 1 ∧ Language below ts x) := by
  intro tokens x rest h
  obtain ⟨level, hi, h⟩ := deeper_eq_ok h
  obtain ⟨below, hd, hs⟩ := hb level hi
  obtain ⟨ts, rfl, hl⟩ := hpart level below hs h
  exact ⟨ts, rfl, below, hd, hl⟩

theorem enclosed_takes (hb : Below inner depth) {close : Mark} {tokens rest : List Token} {x : Expr}
    (h : enclosed inner close tokens = .ok (x, rest)) :
    ∃ ts d, tokens = ts ++ .mark close :: rest ∧ d + 1 ≤ depth ∧ Derives .or d ts x := by
  unfold enclosed at h
  split at h
  · cases h
  · next y tokens' hy =>
    obtain ⟨rest', he, hr⟩ := Except.map_eq_ok.mp h
    cases hr
    obtain ⟨ts, rfl, below, rfl, d, hd, hx⟩ :=
      deeper_takes hb (fun _ _ hs => hs.anything) hy
    exact ⟨ts, d, by rw [expect_eq_ok.mp he], by omega, hx⟩

/-- Items are taken with the closing mark behind them. -/
theorem itemsFrom_takes {item : Parser} {close : Mark} (hi : Takes item (DerivesIn depth .or))
    {fuel : Nat} {done es : List Expr} {tokens rest : List Token}
    (h : itemsFrom item close fuel done tokens = .ok (es, rest)) :
    ∃ ts new, tokens = ts ++ .mark close :: rest ∧ es = done.reverse ++ new ∧
      DerivesIn depth .items ts new := by
  have empty : DerivesIn depth .items [] [] := ⟨0, Nat.zero_le _, .noItems⟩
  -- By induction on the fuel: `done` holds the items so far in reverse, `new` those that follow.
  induction fuel generalizing done tokens with
  | zero =>
    obtain ⟨rest', he, hr⟩ := Except.map_eq_ok.mp h
    cases hr
    exact ⟨[], [], expect_eq_ok.mp he, by simp, empty⟩
  | succ fuel ih =>
    rw [itemsFrom] at h
    split at h
    · next hc =>
      cases h
      obtain ⟨tail, rfl⟩ := List.head?_eq_some_iff.mp hc
      exact ⟨[], [], rfl, by simp, empty⟩
    · -- Behind an item stands a comma, and the items go on, or they end here.
      split at h
      · cases h
      · next x tokens' hx =>
        obtain ⟨ts, rfl, d, hd, hx'⟩ := hi hx
        obtain ⟨ts', new, rfl, rfl, d', hd', hn⟩ := ih h
        exact ⟨ts ++ .mark .comma :: ts', x :: new, by simp, by simp, max d d', by omega,
          .item hx' hn⟩
      · next x tokens' _ hx =>
        obtain ⟨ts, rfl, d, hd, hx⟩ := hi hx
        obtain ⟨rest', he, hr⟩ := Except.map_eq_ok.mp h
        cases hr
        exact ⟨ts, [x], by rw [expect_eq_ok.mp he], by simp, d, hd, .lastItem hx⟩

theorem items_takes (hb : Below inner depth) {close : Mark} {es : List Expr}
    {tokens rest : List Token} (h : items inner close tokens = .ok (es, rest)) :
    ∃ ts d, tokens = ts ++ .mark close :: rest ∧ d + 1 ≤ depth ∧ Derives .items d ts es := by
  unfold items at h
  split at h
  · cases h
  · next level =>
    obtain ⟨below, rfl, hs⟩ := hb level rfl
    obtain ⟨ts, new, rfl, rfl, d, hd, hn⟩ := itemsFrom_takes hs.anything h
    exact ⟨ts, d, rfl, by omega, hn⟩

/-! ## Primary expressions and their postfixes -/

theorem named_takes (hb : Below inner depth) {word : String} {tokens rest : List Token} {x : Expr}
    (h : named inner word tokens = .ok (x, rest)) :
    ∃ ts, .name word :: tokens = ts ++ rest ∧ DerivesIn depth .primary ts x := by
  unfold named at h
  split at h
  · next v hv =>
    cases h
    exact ⟨[.name word], rfl, 0, Nat.zero_le _, .word (wordLiteral?_eq_some.mp hv)⟩
  · next hv =>
    split at h
    · cases h
    · next ho =>
      have free : IsIdentifier word := isIdentifier_iff.mpr ⟨hv, by simpa using ho⟩
      -- With an opening mark behind it the name is called; without one it is a variable.
      split at h
      · next tokens' =>
        obtain ⟨⟨es, rest'⟩, hes, hr⟩ := Except.map_eq_ok.mp h
        cases hr
        obtain ⟨ts, d, rfl, hd, hes⟩ := items_takes hb hes
        exact ⟨.name word :: .mark .openParen :: (ts ++ [.mark .closeParen]), by simp, d + 1, hd,
          .call free hes⟩
      · cases h
        exact ⟨[.name word], rfl, 0, Nat.zero_le _, .var free⟩

theorem primary_takes (hb : Below inner depth) :
    Takes (primary inner) (DerivesIn depth .primary) := by
  intro tokens x rest h
  unfold primary at h
  split at h
  · cases h
  · cases h
    exact ⟨[_], rfl, 0, Nat.zero_le _, .int _⟩
  · cases h
    exact ⟨[_], rfl, 0, Nat.zero_le _, .float _⟩
  · cases h
    exact ⟨[_], rfl, 0, Nat.zero_le _, .str _⟩
  · exact named_takes hb h
  · obtain ⟨ts, d, rfl, hd, hx⟩ := enclosed_takes hb h
    exact ⟨.mark .openParen :: (ts ++ [.mark .closeParen]), by simp, d + 1, hd, .group hx⟩
  · obtain ⟨⟨es, rest'⟩, hes, hr⟩ := Except.map_eq_ok.mp h
    cases hr
    obtain ⟨ts, d, rfl, hd, hes⟩ := items_takes hb hes
    exact ⟨.mark .openBracket :: (ts ++ [.mark .closeBracket]), by simp, d + 1, hd, .list hes⟩
  · cases h

theorem subscripts_takes (hb : Below inner depth) {fuel : Nat} {target x : Expr}
    {taken tokens rest : List Token} (ht : DerivesIn depth .postfixed taken target)
    (h : subscripts inner fuel target tokens = .ok (x, rest)) :
    ∃ ts, tokens = ts ++ rest ∧ DerivesIn depth .postfixed (taken ++ ts) x := by
  fun_induction subscripts inner fuel target tokens generalizing taken with
  | case1 => cases h
  | case2 fuel target tokens position tokens' hp ih =>
    obtain ⟨ts, d, rfl, hd, hp⟩ := enclosed_takes hb hp
    obtain ⟨d', hd', ht⟩ := ht
    obtain ⟨ts', rfl, hx⟩ := ih ⟨max d' (d + 1), by omega, .index ht hp⟩ h
    exact ⟨.mark .openBracket :: (ts ++ .mark .closeBracket :: ts'), by simp, by simpa using hx⟩
  | case3 => cases h
  | case4 =>
    cases h
    exact ⟨[], rfl, by simpa using ht⟩

theorem postfixed_takes (hb : Below inner depth) :
    Takes (postfixed inner) (DerivesIn depth .postfixed) := by
  intro tokens x rest h
  unfold postfixed at h
  split at h
  · cases h
  · next target tokens' ht =>
    obtain ⟨ts, rfl, d, hd, ht⟩ := primary_takes hb ht
    obtain ⟨ts', rfl, hx⟩ := subscripts_takes hb ⟨d, hd, .whole ht⟩ h
    exact ⟨ts ++ ts', by simp, hx⟩

theorem signed_takes (hb : Below inner depth) : Takes (signed inner) (DerivesIn depth .unary) := by
  have inside : Takes (deeper inner Level.signed) _ := deeper_takes hb fun _ _ hs => hs.signed
  intro tokens x rest h
  unfold signed at h
  split at h
  · obtain ⟨⟨y, rest'⟩, hy, hr⟩ := Except.map_eq_ok.mp h
    cases hr
    obtain ⟨ts, rfl, below, rfl, d, hd, hy⟩ := inside hy
    exact ⟨.mark .minus :: ts, rfl, d + 1, by omega, .minus hy⟩
  · obtain ⟨ts, rfl, below, rfl, d, hd, hx⟩ := inside h
    exact ⟨.mark .plus :: ts, rfl, d + 1, by omega, .plus hx⟩
  · obtain ⟨ts, rfl, d, hd, hx⟩ := postfixed_takes hb h
    exact ⟨ts, rfl, d, hd, .unsigned hx⟩

/-! ## Operators between operands -/

theorem product_takes (hb : Below inner depth) : Takes (product inner) (DerivesIn depth .term) := by
  refine chain_takes (signed_takes hb) ?_ ?_
  · rintro ts x ⟨d, hd, hx⟩
    exact ⟨d, hd, .factor hx⟩
  · rintro ts x t join ts' y ⟨d, hd, hx⟩ hj ⟨d', hd', hy⟩
    obtain ⟨op, ht, rfl⟩ := productLink_eq_some.mp hj
    exact ⟨max d d', by omega, .product hx ht hy⟩

theorem sum_takes (hb : Below inner depth) : Takes (sum inner) (DerivesIn depth .sum) := by
  refine chain_takes (product_takes hb) ?_ ?_
  · rintro ts x ⟨d, hd, hx⟩
    exact ⟨d, hd, .summand hx⟩
  · rintro ts x t join ts' y ⟨d, hd, hx⟩ hj ⟨d', hd', hy⟩
    obtain ⟨op, ht, rfl⟩ := sumLink_eq_some.mp hj
    exact ⟨max d d', by omega, .sum hx ht hy⟩

theorem linksFrom_takes (hb : Below inner depth) {fuel : Nat} {done ls : List (Relation × Expr)}
    {tokens rest : List Token} (h : linksFrom (sum inner) fuel done tokens = .ok (ls, rest)) :
    ∃ ts new, tokens = ts ++ rest ∧ ls = done.reverse ++ new ∧ DerivesIn depth .links ts new := by
  induction fuel generalizing done tokens with
  | zero =>
    cases h
    exact ⟨[], [], rfl, by simp, 0, Nat.zero_le _, .noLinks⟩
  | succ fuel ih =>
    rw [linksFrom] at h
    split at h
    · cases h
      exact ⟨[], [], rfl, by simp, 0, Nat.zero_le _, .noLinks⟩
    · next relation tokens' hr =>
      obtain ⟨signs, hs, rfl⟩ := relation?_eq_some.mp hr
      split at h
      · cases h
      · next x tokens'' hx =>
        obtain ⟨ts, rfl, d, hd, hx'⟩ := sum_takes hb hx
        obtain ⟨ts', new, rfl, rfl, d', hd', hn⟩ := ih h
        exact ⟨signs ++ ts ++ ts', (relation, x) :: new, by simp, by simp, max d d', by omega,
          .link hs hx' hn⟩

theorem comparison_takes (hb : Below inner depth) :
    Takes (comparison inner) (DerivesIn depth .comparison) := by
  intro tokens x rest h
  unfold comparison at h
  split at h
  · cases h
  · next first tokens' hf =>
    obtain ⟨ts, rfl, d, hd, hf'⟩ := sum_takes hb hf
    split at h
    · cases h
    · next tokens'' hl =>
      obtain ⟨ts', new, rfl, hn, d', hd', hl'⟩ := linksFrom_takes hb hl
      obtain rfl : new = [] := by simpa using hn.symm
      cases hl'
      cases h
      exact ⟨ts, rfl, d, hd, .alone hf'⟩
    · -- The first operand takes nothing of the links, so the two derivations stand side by side.
      next links tokens'' hne hl =>
      obtain ⟨ts', new, rfl, rfl, d', hd', hl'⟩ := linksFrom_takes hb hl
      cases h
      exact ⟨ts ++ ts', by simp, max d d', by omega, .compare hf' hl' (by rintro rfl; exact hne rfl)⟩

theorem negated_takes (hb : Below inner depth) : Takes (negated inner) (DerivesIn depth .not) := by
  have inside : Takes (deeper inner Level.negated) _ := deeper_takes hb fun _ _ hs => hs.negated
  have one {t : Token} {tokens rest : List Token} {x : Expr} (ht : t ∈ notSigns)
      (hx : deeper inner Level.negated tokens = .ok (x, rest)) :
      ∃ ts, t :: tokens = ts ++ rest ∧ DerivesIn depth .not ts (.not x) := by
    obtain ⟨ts, rfl, below, rfl, d, hd, hx⟩ := inside hx
    exact ⟨t :: ts, rfl, d + 1, by omega, .not ht hx⟩
  intro tokens x rest h
  unfold negated at h
  split at h
  · obtain ⟨⟨y, rest'⟩, hy, hr⟩ := Except.map_eq_ok.mp h
    cases hr
    exact one (by decide) hy
  · obtain ⟨⟨y, rest'⟩, hy, hr⟩ := Except.map_eq_ok.mp h
    cases hr
    exact one (by decide) hy
  · obtain ⟨ts, rfl, d, hd, hx⟩ := comparison_takes hb h
    exact ⟨ts, rfl, d, hd, .compared hx⟩

theorem conjunction_takes (hb : Below inner depth) :
    Takes (conjunction inner) (DerivesIn depth .and) := by
  refine chain_takes (negated_takes hb) ?_ ?_
  · rintro ts x ⟨d, hd, hx⟩
    exact ⟨d, hd, .conjunct hx⟩
  · rintro ts x t join ts' y ⟨d, hd, hx⟩ hj ⟨d', hd', hy⟩
    obtain ⟨ht, rfl⟩ := bothLink_eq_some.mp hj
    exact ⟨max d d', by omega, .and hx ht hy⟩

theorem anything_takes (hb : Below inner depth) : Takes (anything inner) (DerivesIn depth .or) := by
  refine chain_takes (conjunction_takes hb) ?_ ?_
  · rintro ts x ⟨d, hd, hx⟩
    exact ⟨d, hd, .disjunct hx⟩
  · rintro ts x t join ts' y ⟨d, hd, hx⟩ hj ⟨d', hd', hy⟩
    obtain ⟨ht, rfl⟩ := eitherLink_eq_some.mp hj
    exact ⟨max d d', by omega, .or hx ht hy⟩

end Levels

/-! ## All levels -/

/-- Below a depth stands the level with one depth less, and it is sound if all below it are. -/
theorem below_level (depth : Nat) : Below (level depth) depth := by
  induction depth with
  | zero =>
    intro level h
    cases h
  | succ depth ih =>
    intro above h
    cases h
    exact ⟨depth, rfl, anything_takes ih, negated_takes ih, signed_takes ih⟩

/-- An expression is taken if it derives at a nesting the depth allows. -/
theorem takes_level (depth : Nat) : Takes (anything (level depth)) (DerivesIn depth .or) :=
  anything_takes (below_level depth)

end Stepwise.Expr
