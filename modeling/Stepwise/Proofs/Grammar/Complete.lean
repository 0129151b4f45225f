import Stepwise.Proofs.Grammar.Sound

/-!
# The grammar and the reader agree

A row of tokens that derives a tree is read as that tree, whatever depth above its nesting is left
and whatever stands behind it, as long as that does not hold on to it. The looser a token holds on
to what stands before it, the larger the parts are that are read whole in front of it.

* `Chains`: what a chain has read of the tokens, as the state of its loop.
* `Reads`: what it means for each part to be read, at a depth.
* `Derives.reads`: every derivation is read, at any depth its nesting fits in.
* `ofTokens_eq_ok_iff`: whole tokens are read as a tree exactly if they derive it within
  `maxDepth`, and they derive no other.
-/

namespace Stepwise.Expr

/-! ## Tokens behind a part -/

/-- How loosely a token holds on to what stands before it: 0 as an argument list, 1 as a postfix,
then as an operator of 2 products, 3 sums, 4 comparisons, 5 conjunctions and 6 disjunctions, and
7 not at all. -/
def looseness : Token → Nat
  | .mark .openParen => 0
  | .mark .openBracket | .mark .dot => 1
  | .mark .times | .mark .slash | .mark .doubleSlash | .mark .percent => 2
  | .mark .plus | .mark .minus => 3
  | .mark .equal | .mark .unequal | .mark .less | .mark .atMost | .mark .greater | .mark .atLeast
  | .name "in" | .name "not" => 4
  | .name "and" | .mark .both => 5
  | .name "or" | .mark .either => 6
  | _ => 7

/-- The first token holds on no closer than the bound. -/
def Stops (bound : Nat) (tokens : List Token) : Prop := ∀ t ∈ tokens.head?, bound ≤ looseness t

theorem Stops.mono {bound smaller : Nat} {tokens : List Token} (h : Stops bound tokens)
    (hle : smaller ≤ bound) : Stops smaller tokens := fun t ht => Nat.le_trans hle (h t ht)

theorem Stops.nil {bound : Nat} : Stops bound [] := fun _ h => by cases h

theorem Stops.cons {bound : Nat} {t : Token} {tokens : List Token} (h : bound ≤ looseness t) :
    Stops bound (t :: tokens) := by
  intro t' ht'
  cases ht'
  exact h

/-- The operator of a comparison begins with a token that holds on as one. -/
theorem looseness_of_relationSigns {signs : List Token} {relation : Relation}
    (h : (signs, relation) ∈ relationSigns) : ∃ t more, signs = t :: more ∧ looseness t = 4 := by
  simp only [relationSigns, List.mem_cons, List.not_mem_nil, or_false, Prod.mk.injEq] at h
  rcases h with ⟨rfl, -⟩ | ⟨rfl, -⟩ | ⟨rfl, -⟩ | ⟨rfl, -⟩ | ⟨rfl, -⟩ | ⟨rfl, -⟩ | ⟨rfl, -⟩ |
    ⟨rfl, -⟩ <;> exact ⟨_, _, rfl, rfl⟩

/-- Links hold on as the operators of comparisons, if any are there. -/
theorem Derives.stops {d : Nat} {ts rest : List Token} {ls : List (Relation × Expr)}
    (h : Derives .links d ts ls) (hs : Stops 4 rest) : Stops 4 (ts ++ rest) := by
  cases h with
  | noLinks => exact hs
  | link sign =>
    obtain ⟨t, more, rfl, ht⟩ := looseness_of_relationSigns sign
    exact Stops.cons (Nat.le_of_eq ht.symm)

/-! ### Operators and where they stop -/

/-- All operators of a chain hold on equally loosely. -/
def HoldsAt (link : Token → Option (Expr → Expr → Expr)) (bound : Nat) : Prop :=
  ∀ ⦃t join⦄, link t = some join → looseness t = bound

theorem eitherLink_holdsAt : HoldsAt eitherLink 6 := by
  intro t join h
  unfold eitherLink at h
  split at h <;> cases h <;> rfl

theorem bothLink_holdsAt : HoldsAt bothLink 5 := by
  intro t join h
  unfold bothLink at h
  split at h <;> cases h <;> rfl

theorem sumLink_holdsAt : HoldsAt sumLink 3 := by
  intro t join h
  unfold sumLink at h
  split at h <;> cases h <;> rfl

theorem productLink_holdsAt : HoldsAt productLink 2 := by
  intro t join h
  unfold productLink at h
  split at h <;> cases h <;> rfl

theorem HoldsAt.stops {link : Token → Option (Expr → Expr → Expr)} {bound : Nat}
    (hl : HoldsAt link bound) {t : Token} {join : Expr → Expr → Expr} (h : link t = some join)
    (tokens : List Token) : Stops bound (t :: tokens) :=
  Stops.cons (Nat.le_of_eq (hl h).symm)

theorem HoldsAt.eq_none {link : Token → Option (Expr → Expr → Expr)} {bound : Nat}
    (hl : HoldsAt link bound) {t : Token} (h : bound < looseness t) : link t = none := by
  cases hj : link t with
  | none => rfl
  | some join =>
    have := hl hj
    omega

theorem relation?_eq_none {tokens : List Token} (h : Stops 5 tokens) : relation? tokens = none := by
  cases hr : relation? tokens with
  | none => rfl
  | some found =>
    obtain ⟨signs, hs, rfl⟩ := relation?_eq_some.mp hr
    obtain ⟨t, more, rfl, ht⟩ := looseness_of_relationSigns hs
    have := h t rfl
    omega

theorem subscripts_eq_ok {inner : Option Level} {fuel : Nat} {x : Expr} {rest : List Token}
    (h : Stops 2 rest) : subscripts inner fuel x rest = .ok (x, rest) := by
  unfold subscripts
  split
  · exact absurd (h _ rfl) (by decide)
  · exact absurd (h _ rfl) (by decide)
  · rfl

/-! ## Chains -/

section Chains

variable {operand : Parser} {link : Token → Option (Expr → Expr → Expr)}
variable {ts ts' rest : List Token} {x y : Expr}

/-- A chain has read the tokens as a tree and goes on with the rest. -/
def Chains (operand : Parser) (link : Token → Option (Expr → Expr → Expr)) (ts : List Token)
    (x : Expr) (rest : List Token) : Prop :=
  ∃ fuel, rest.length ≤ fuel ∧
    chain operand link (ts ++ rest) = chainFrom operand link fuel x rest

theorem Chains.first (h : operand (ts ++ rest) = .ok (x, rest)) :
    Chains operand link ts x rest := by
  refine ⟨rest.length, Nat.le_refl _, ?_⟩
  rw [chain, h]

theorem Chains.join {t : Token} {join : Expr → Expr → Expr}
    (h : Chains operand link ts x (t :: (ts' ++ rest))) (hl : link t = some join)
    (hy : operand (ts' ++ rest) = .ok (y, rest)) :
    Chains operand link (ts ++ t :: ts') (join x y) rest := by
  obtain ⟨fuel, hf, h⟩ := h
  simp only [List.length_cons, List.length_append] at hf
  obtain ⟨fuel, rfl⟩ : ∃ n, fuel = n + 1 := ⟨fuel - 1, by omega⟩
  refine ⟨fuel, by omega, ?_⟩
  rw [List.append_assoc, List.cons_append, h, chainFrom, hl]
  simp only [hy]

/-- A chain ends in front of a token that holds on more loosely than its operators. -/
theorem Chains.done {bound : Nat} (h : Chains operand link ts x rest) (hl : HoldsAt link bound)
    (hs : Stops (bound + 1) rest) : chain operand link (ts ++ rest) = .ok (x, rest) := by
  obtain ⟨fuel, -, h⟩ := h
  rw [h]
  cases rest with
  | nil => cases fuel <;> rfl
  | cons t rest =>
    cases fuel with
    | zero => rfl
    | succ fuel => rw [chainFrom, hl.eq_none (hs t rfl)]

end Chains

/-! ## Parts at the front of tokens -/

/-- Subscripts have been read behind the tokens as a tree and may go on in the rest. -/
def Subscribes (inner : Option Level) (ts : List Token) (x : Expr) (rest : List Token) : Prop :=
  ∃ fuel, rest.length < fuel ∧ postfixed inner (ts ++ rest) = subscripts inner fuel x rest

/-- The readers with a depth left read the tokens of a part as its tree, in front of any tokens
that hold on loosely enough. -/
def Reads (depth : Nat) : (part : Part) → List Token → part.Tree → Prop
  | .or, ts, x => ∀ rest, Stops 6 rest →
    Chains (conjunction (level depth)) eitherLink ts x rest
  | .and, ts, x => ∀ rest, Stops 5 rest →
    Chains (negated (level depth)) bothLink ts x rest
  | .not, ts, x => ∀ rest, Stops 5 rest → negated (level depth) (ts ++ rest) = .ok (x, rest)
  | .comparison, ts, x => ∀ rest, Stops 5 rest →
    comparison (level depth) (ts ++ rest) = .ok (x, rest)
  | .links, ts, ls => ∀ rest, Stops 5 rest → ∀ fuel done, ts.length ≤ fuel →
    linksFrom (sum (level depth)) fuel done (ts ++ rest) = .ok (done.reverse ++ ls, rest)
  | .sum, ts, x => ∀ rest, Stops 3 rest → Chains (product (level depth)) sumLink ts x rest
  | .term, ts, x => ∀ rest, Stops 2 rest → Chains (signed (level depth)) productLink ts x rest
  | .unary, ts, x => ∀ rest, Stops 2 rest → signed (level depth) (ts ++ rest) = .ok (x, rest)
  | .postfixed, ts, x => ∀ rest, Stops 1 rest → Subscribes (level depth) ts x rest
  | .primary, ts, x => ∀ rest, Stops 1 rest → primary (level depth) (ts ++ rest) = .ok (x, rest)
  | .items, ts, es => ∀ close, close = .closeParen ∨ close = .closeBracket →
    ∀ rest fuel done, ts.length < fuel →
      itemsFrom (anything (level depth)) close fuel done (ts ++ .mark close :: rest) =
        .ok (done.reverse ++ es, rest)

section Parts

variable {depth : Nat} {ts rest : List Token} {x : Expr}

theorem Reads.anything_eq_ok (h : Reads depth .or ts x) (hs : Stops 7 rest) :
    anything (level depth) (ts ++ rest) = .ok (x, rest) :=
  (h rest (hs.mono (by decide))).done eitherLink_holdsAt hs

theorem Reads.conjunction_eq_ok (h : Reads depth .and ts x) (hs : Stops 6 rest) :
    conjunction (level depth) (ts ++ rest) = .ok (x, rest) :=
  (h rest (hs.mono (by decide))).done bothLink_holdsAt hs

theorem Reads.sum_eq_ok (h : Reads depth .sum ts x) (hs : Stops 4 rest) :
    sum (level depth) (ts ++ rest) = .ok (x, rest) :=
  (h rest (hs.mono (by decide))).done sumLink_holdsAt hs

theorem Reads.product_eq_ok (h : Reads depth .term ts x) (hs : Stops 3 rest) :
    product (level depth) (ts ++ rest) = .ok (x, rest) :=
  (h rest (hs.mono (by decide))).done productLink_holdsAt hs

theorem Reads.postfixed_eq_ok (h : Reads depth .postfixed ts x) (hs : Stops 2 rest) :
    postfixed (level depth) (ts ++ rest) = .ok (x, rest) := by
  obtain ⟨fuel, -, h⟩ := h rest (hs.mono (by decide))
  rw [h, subscripts_eq_ok hs]

theorem Reads.enclosed_eq_ok (h : Reads depth .or ts x) {close : Mark}
    (hc : looseness (.mark close) = 7) (rest : List Token) :
    enclosed (level (depth + 1)) close (ts ++ .mark close :: rest) = .ok (x, rest) := by
  have ho : anything (level depth) (ts ++ .mark close :: rest) =
      .ok (x, .mark close :: rest) := h.anything_eq_ok (Stops.cons (Nat.le_of_eq hc.symm))
  simp [enclosed, deeper, level, Level.above, ho, expect, Except.map]

theorem Reads.items_eq_ok {es : List Expr} (h : Reads depth .items ts es) {close : Mark}
    (hc : close = .closeParen ∨ close = .closeBracket) (rest : List Token) :
    items (level (depth + 1)) close (ts ++ .mark close :: rest) = .ok (es, rest) := by
  have hlen : ts.length < (ts ++ .mark close :: rest).length + 1 := by
    rw [List.length_append]
    omega
  have := h close hc rest _ [] hlen
  simpa [items, level, Level.above] using this

end Parts

/-! ### What the first token decides -/

theorem negated_eq_comparison {inner : Option Level} {tokens : List Token}
    (h : Part.comparison.Begins tokens) : negated inner tokens = comparison inner tokens := by
  obtain ⟨t, rest, rfl, ht⟩ := h
  unfold negated
  split
  · next he => cases he; exact absurd ht (by decide)
  · next he => cases he; exact absurd ht (by decide)
  · rfl

theorem signed_eq_postfixed {inner : Option Level} {tokens : List Token}
    (h : Part.postfixed.Begins tokens) : signed inner tokens = postfixed inner tokens := by
  obtain ⟨t, rest, rfl, ht⟩ := h
  unfold signed
  split
  · next he => cases he; exact absurd ht (by decide)
  · next he => cases he; exact absurd ht (by decide)
  · rfl

theorem head?_ne_close {close : Mark} (hc : close = .closeParen ∨ close = .closeBracket)
    {tokens : List Token} (h : Part.or.Begins tokens) : tokens.head? ≠ some (.mark close) := by
  obtain ⟨t, rest, rfl, ht⟩ := h
  intro he
  cases he
  rcases hc with rfl | rfl <;> exact absurd ht (by decide)

/-! ## One rule each -/

section Rules

variable {depth : Nat} {ts ts' : List Token} {x y : Expr}

/-! ### Negations and comparisons -/

theorem negated_cons {t : Token} (ht : t ∈ notSigns) (tokens : List Token) :
    negated (level (depth + 1)) (t :: tokens) =
      (negated (level depth) tokens).map fun (e, rest) => (.not e, rest) := by
  simp only [notSigns, List.mem_cons, List.not_mem_nil, or_false] at ht
  rcases ht with rfl | rfl <;> rfl

theorem reads_not {t : Token} (ht : t ∈ notSigns) (hx : Reads depth .not ts x) :
    Reads (depth + 1) .not (t :: ts) (.not x) := by
  intro rest hs
  have hr : negated (level depth) (ts ++ rest) = .ok (x, rest) := hx rest hs
  rw [List.cons_append, negated_cons ht, hr]
  rfl

theorem linksFrom_eq_ok {operand : Parser} {fuel : Nat} {done : List (Relation × Expr)}
    {rest : List Token} (hs : Stops 5 rest) :
    linksFrom operand fuel done rest = .ok (done.reverse, rest) := by
  cases fuel with
  | zero => rfl
  | succ fuel => rw [linksFrom, relation?_eq_none hs]

theorem reads_link {signs : List Token} {relation : Relation} {ls : List (Relation × Expr)}
    {d : Nat} (hsigns : (signs, relation) ∈ relationSigns) (hl : Derives .links d ts' ls)
    (hx : Reads depth .sum ts x) (hls : Reads depth .links ts' ls) :
    Reads depth .links (signs ++ ts ++ ts') ((relation, x) :: ls) := by
  intro rest hs fuel done hf
  obtain ⟨t, more, he, -⟩ := looseness_of_relationSigns hsigns
  have hlen : signs.length = more.length + 1 := by rw [he]; rfl
  simp only [List.length_append] at hf
  obtain ⟨fuel, rfl⟩ : ∃ n, fuel = n + 1 := ⟨fuel - 1, by omega⟩
  have hr : relation? (signs ++ ts ++ ts' ++ rest) = some (relation, ts ++ (ts' ++ rest)) :=
    relation?_eq_some.mpr ⟨signs, hsigns, by simp⟩
  rw [linksFrom, hr]
  simp only [hx.sum_eq_ok (hl.stops (hs.mono (by decide)))]
  rw [hls rest hs fuel _ (by omega)]
  simp

/-- Without links the sum is left as it is. -/
theorem reads_alone (hx : Reads depth .sum ts x) : Reads depth .comparison ts x := by
  intro rest hs
  rw [comparison, hx.sum_eq_ok (hs.mono (by decide))]
  simp only
  rw [linksFrom_eq_ok hs]
  rfl

theorem reads_compare {ls : List (Relation × Expr)} {d : Nat} (hl : Derives .links d ts' ls)
    (hne : ls ≠ []) (hx : Reads depth .sum ts x) (hls : Reads depth .links ts' ls) :
    Reads depth .comparison (ts ++ ts') (.compare x ls) := by
  intro rest hs
  have hlinks := hls rest hs (ts' ++ rest).length [] (by simp)
  rw [List.append_assoc, comparison, hx.sum_eq_ok (hl.stops (hs.mono (by decide)))]
  simp only [hlinks]
  cases ls with
  | nil => exact absurd rfl hne
  | cons l ls => rfl

/-! ### Signs and subscripts -/

theorem reads_minus (hx : Reads depth .unary ts x) :
    Reads (depth + 1) .unary (.mark .minus :: ts) (.neg x) := by
  intro rest hs
  have hr : signed (level depth) (ts ++ rest) = .ok (x, rest) := hx rest hs
  show (signed (level depth) (ts ++ rest)).map _ = _
  rw [hr]
  rfl

/-- Behind a plus, everything is read as without it, one level deeper. -/
theorem reads_plus (hx : Reads depth .unary ts x) :
    Reads (depth + 1) .unary (.mark .plus :: ts) x := by
  intro rest hs
  show signed (level depth) (ts ++ rest) = _
  exact hx rest hs

theorem reads_index (hx : Reads (depth + 1) .postfixed ts x) (hy : Reads depth .or ts' y) :
    Reads (depth + 1) .postfixed (ts ++ .mark .openBracket :: (ts' ++ [.mark .closeBracket]))
      (.index x y) := by
  intro rest _
  have hs : Stops 1 (.mark .openBracket :: (ts' ++ .mark .closeBracket :: rest)) :=
    Stops.cons (by decide)
  obtain ⟨fuel, hf, ht⟩ := hx _ hs
  simp only [List.length_cons, List.length_append] at hf
  obtain ⟨fuel, rfl⟩ : ∃ n, fuel = n + 1 := ⟨fuel - 1, by omega⟩
  refine ⟨fuel, by omega, ?_⟩
  rw [subscripts, hy.enclosed_eq_ok rfl rest] at ht
  simpa using ht

/-! ### Primary expressions -/

theorem reads_word {word : String} {value : Value} (known : (word, value) ∈ wordLiterals) :
    Reads depth .primary [.name word] (.lit value) := by
  intro rest _
  show named (level depth) word rest = _
  simp only [named, wordLiteral?_eq_some.mpr known]

theorem reads_var {word : String} (free : IsIdentifier word) :
    Reads depth .primary [.name word] (.var word) := by
  intro rest hs
  obtain ⟨hw, ho⟩ := isIdentifier_iff.mp free
  show named (level depth) word rest = _
  simp only [named, hw, ho, Bool.false_eq_true, ↓reduceIte]
  split
  · exact absurd (hs _ rfl) (by decide)
  · rfl

theorem reads_call {word : String} {es : List Expr} (free : IsIdentifier word)
    (hes : Reads depth .items ts es) :
    Reads (depth + 1) .primary (.name word :: .mark .openParen :: (ts ++ [.mark .closeParen]))
      (.call word es) := by
  intro rest _
  show named (level (depth + 1)) word (.mark .openParen :: (ts ++ [.mark .closeParen]) ++ rest) = _
  obtain ⟨hw, ho⟩ := isIdentifier_iff.mp free
  simp [named, hw, ho, hes.items_eq_ok (.inl rfl) rest, Except.map]

theorem reads_group (hx : Reads depth .or ts x) :
    Reads (depth + 1) .primary (.mark .openParen :: (ts ++ [.mark .closeParen])) x := by
  intro rest _
  show enclosed (level (depth + 1)) .closeParen (ts ++ [.mark .closeParen] ++ rest) = _
  rw [List.append_assoc]
  exact hx.enclosed_eq_ok rfl rest

theorem reads_list {es : List Expr} (hes : Reads depth .items ts es) :
    Reads (depth + 1) .primary (.mark .openBracket :: (ts ++ [.mark .closeBracket]))
      (.list es) := by
  intro rest _
  simp [primary, hes.items_eq_ok (.inr rfl) rest, Except.map]

/-! ### Items -/

theorem reads_noItems : Reads depth .items [] [] := by
  intro close _ rest fuel done hf
  obtain ⟨fuel, rfl⟩ : ∃ n, fuel = n + 1 := ⟨fuel - 1, by omega⟩
  rw [List.nil_append, itemsFrom, if_pos List.head?_cons, List.append_nil]
  rfl

theorem reads_lastItem (hb : Part.or.Begins ts) (hx : Reads depth .or ts x) :
    Reads depth .items ts [x] := by
  intro close hc rest fuel done hf
  obtain ⟨fuel, rfl⟩ : ∃ n, fuel = n + 1 := ⟨fuel - 1, by omega⟩
  have hs : Stops 7 (.mark close :: rest) := Stops.cons (by rcases hc with rfl | rfl <;> decide)
  rw [itemsFrom, if_neg (head?_ne_close hc (hb.append _)), hx.anything_eq_ok hs]
  rcases hc with rfl | rfl <;> simp [expect, Except.map]

theorem reads_item {es : List Expr} (hb : Part.or.Begins ts) (hx : Reads depth .or ts x)
    (hes : Reads depth .items ts' es) :
    Reads depth .items (ts ++ .mark .comma :: ts') (x :: es) := by
  intro close hc rest fuel done hf
  simp only [List.length_append, List.length_cons] at hf
  obtain ⟨fuel, rfl⟩ : ∃ n, fuel = n + 1 := ⟨fuel - 1, by omega⟩
  have hs : Stops 7 (.mark .comma :: (ts' ++ .mark close :: rest)) := Stops.cons (by decide)
  rw [List.append_assoc, List.cons_append, itemsFrom, if_neg (head?_ne_close hc (hb.append _)),
    hx.anything_eq_ok hs]
  simp only
  rw [hes close hc rest fuel _ (by omega)]
  simp

end Rules

/-! ## Every derivation is read -/

/-- By induction on the derivation. The depth and the tokens behind stay free in it, since a part
is read at many depths and in front of the operators of the parts around it. -/
theorem Derives.reads {part : Part} {d : Nat} {ts : List Token} {x : part.Tree}
    (h : Derives part d ts x) : ∀ depth, d ≤ depth → Reads depth part ts x := by
  induction h with
  -- Chains. One of a single operand is this operand; in a longer one the operands on the left end
  -- where the last link stands, so they are read in front of it.
  | disjunct _ ih =>
    intro depth hd rest hs
    exact Chains.first ((ih depth hd).conjunction_eq_ok hs)
  | or _ sign _ ihl ihr =>
    intro depth hd rest hs
    have hj := eitherLink_eq_some.mpr ⟨sign, rfl⟩
    exact (ihl depth (by omega) _ (eitherLink_holdsAt.stops hj _)).join hj
      ((ihr depth (by omega)).conjunction_eq_ok hs)
  | conjunct _ ih =>
    intro depth hd rest hs
    exact Chains.first (ih depth hd rest hs)
  | and _ sign _ ihl ihr =>
    intro depth hd rest hs
    have hj := bothLink_eq_some.mpr ⟨sign, rfl⟩
    exact (ihl depth (by omega) _ (bothLink_holdsAt.stops hj _)).join hj
      (ihr depth (by omega) rest hs)
  -- What begins with no `not` is a comparison.
  | compared h ih =>
    intro depth hd rest hs
    rw [negated_eq_comparison ((h.begins.resolve_left (by decide)).append rest)]
    exact ih depth hd rest hs
  -- What nests has a level left to nest in, since the derivation counts it as well.
  | not sign _ ih =>
    intro depth hd
    obtain ⟨depth, rfl⟩ : ∃ n, depth = n + 1 := ⟨depth - 1, by omega⟩
    exact reads_not sign (ih depth (by omega))
  | alone _ ih =>
    intro depth hd
    exact reads_alone (ih depth hd)
  | compare _ hl hne ihf ihl =>
    intro depth hd
    exact reads_compare hl hne (ihf depth (by omega)) (ihl depth (by omega))
  -- The links of one comparison, up to the first token that is none.
  | noLinks =>
    intro depth _ rest hs fuel done _
    rw [List.nil_append, List.append_nil]
    exact linksFrom_eq_ok hs
  | link sign _ hl ih ihl =>
    intro depth hd
    exact reads_link sign hl (ih depth (by omega)) (ihl depth (by omega))
  | summand _ ih =>
    intro depth hd rest hs
    exact Chains.first ((ih depth hd).product_eq_ok hs)
  | sum _ sign _ ihl ihr =>
    intro depth hd rest hs
    have hj := sumLink_eq_some.mpr ⟨_, sign, rfl⟩
    exact (ihl depth (by omega) _ (sumLink_holdsAt.stops hj _)).join hj
      ((ihr depth (by omega)).product_eq_ok hs)
  | factor _ ih =>
    intro depth hd rest hs
    exact Chains.first (ih depth hd rest hs)
  | product _ sign _ ihl ihr =>
    intro depth hd rest hs
    have hj := productLink_eq_some.mpr ⟨_, sign, rfl⟩
    exact (ihl depth (by omega) _ (productLink_holdsAt.stops hj _)).join hj
      (ihr depth (by omega) rest hs)
  -- What begins with no sign goes on with the indices behind it.
  | unsigned h ih =>
    intro depth hd rest hs
    rw [signed_eq_postfixed ((h.begins.resolve_left (by decide)).append rest)]
    exact (ih depth hd).postfixed_eq_ok hs
  | minus _ ih =>
    intro depth hd
    obtain ⟨depth, rfl⟩ : ∃ n, depth = n + 1 := ⟨depth - 1, by omega⟩
    exact reads_minus (ih depth (by omega))
  | plus _ ih =>
    intro depth hd
    obtain ⟨depth, rfl⟩ : ∃ n, depth = n + 1 := ⟨depth - 1, by omega⟩
    exact reads_plus (ih depth (by omega))
  | whole _ ih =>
    intro depth hd rest hs
    refine ⟨rest.length + 1, Nat.lt_succ_self _, ?_⟩
    rw [postfixed, ih depth hd rest hs]
  -- The brackets nest what stands in them, but not what they follow.
  | index _ _ iht ihp =>
    intro depth hd
    obtain ⟨depth, rfl⟩ : ∃ n, depth = n + 1 := ⟨depth - 1, by omega⟩
    exact reads_index (iht (depth + 1) (by omega)) (ihp depth (by omega))
  -- Single tokens, and then what a name or an opening mark begins.
  | int | float | str =>
    intro depth _ rest _
    rfl
  | word known =>
    intro depth _
    exact reads_word known
  | var free =>
    intro depth _
    exact reads_var free
  | call free _ ih =>
    intro depth hd
    obtain ⟨depth, rfl⟩ : ∃ n, depth = n + 1 := ⟨depth - 1, by omega⟩
    exact reads_call free (ih depth (by omega))
  | group _ ih =>
    intro depth hd
    obtain ⟨depth, rfl⟩ : ∃ n, depth = n + 1 := ⟨depth - 1, by omega⟩
    exact reads_group (ih depth (by omega))
  | list _ ih =>
    intro depth hd
    obtain ⟨depth, rfl⟩ : ∃ n, depth = n + 1 := ⟨depth - 1, by omega⟩
    exact reads_list (ih depth (by omega))
  -- Items, up to the closing mark; a comma may stand behind the last one.
  | noItems =>
    intro depth _
    exact reads_noItems
  | lastItem h ih =>
    intro depth hd
    exact reads_lastItem (h.begins.resolve_left (by decide)) (ih depth hd)
  | item h _ ih ihs =>
    intro depth hd
    exact reads_item (h.begins.resolve_left (by decide)) (ih depth (by omega))
      (ihs depth (by omega))

/-! ## Whole expressions -/

theorem Derives.anything_eq_ok {d depth : Nat} {ts : List Token} {x : Expr}
    (h : Derives .or d ts x) (hd : d ≤ depth) : anything (level depth) ts = .ok (x, []) := by
  have := (h.reads depth hd).anything_eq_ok Stops.nil
  rwa [List.append_nil] at this

/-- The grammar is unambiguous: at a depth that fits both, both are what is read. -/
theorem Derives.unique {d d' : Nat} {ts : List Token} {x y : Expr} (hx : Derives .or d ts x)
    (hy : Derives .or d' ts y) : x = y := by
  have h := hx.anything_eq_ok (Nat.le_max_left d d')
  rw [hy.anything_eq_ok (Nat.le_max_right d d')] at h
  cases h
  rfl

/-- Tokens are read if an expression takes them all. Of no tokens no reader makes any. -/
theorem ofTokens_eq_ok {tokens : List Token} {x : Expr} :
    ofTokens tokens = .ok x ↔ anything (level maxDepth) tokens = .ok (x, []) := by
  unfold ofTokens
  split
  · next he =>
    obtain rfl := List.isEmpty_iff.mp he
    constructor
    · intro h
      cases h
    · intro h
      cases h
  · split
    · next h => simp [h]
    · next h => simp [h]
    · next h => simp [h]

/-- The reader accepts exactly the grammar. Tokens are read as a tree if and only if they all derive
it with at most `maxDepth` constructs open around each other, and whatever they derive, at any
nesting, is one tree. -/
theorem ofTokens_eq_ok_iff_derives (tokens : List Token) :
    (∀ x, ofTokens tokens = .ok x ↔ ∃ d ≤ maxDepth, Derives .or d tokens x) ∧
      (∀ d d' x y, Derives .or d tokens x → Derives .or d' tokens y → x = y) := by
  refine ⟨fun x => ⟨fun h => ?_, ?_⟩, fun d d' x y hx hy => hx.unique hy⟩
  · obtain ⟨ts, hts, hx⟩ := takes_level maxDepth (ofTokens_eq_ok.mp h)
    rw [List.append_nil] at hts
    exact hts ▸ hx
  · rintro ⟨d, hd, hx⟩
    exact ofTokens_eq_ok.mpr (hx.anything_eq_ok hd)

/-- A chain with a relation of two words is one node: `a < b not in c`. -/
theorem ofTokens_eq_ok_iff_derives_chain :
    ∃ d ≤ maxDepth, Derives .or d
      [.name "a", .mark .less, .name "b", .name "not", .name "in", .name "c"]
      (.compare (.var "a") [(.lt, .var "b"), (.notIn, .var "c")]) :=
  ((ofTokens_eq_ok_iff_derives _).1 _).mp rfl

end Stepwise.Expr
