import Stepwise.Expr.Parse

/-!
# The grammar of expressions

The documented grammar as a relation between tokens and trees, apart from any reader. Chains of
`or`, `and`, sums and products are left recursive, so they group to the left; the links of a
comparison are gathered in one list, so a chain is one node. Every derivation carries its nesting:
how many negations, signs, parentheses, subscripts, lists and argument lists it has open around
each other at most.

* `Derives`: tokens derive a tree from a part of the grammar, at a nesting.
* `Derives.begins`: what the first token of a part can be.
* `eitherLink_eq_some`, `relation?_eq_some`, `wordLiteral?_eq_some`, …: the readers of single
  operators and words know the same ones as the grammar.
-/

namespace Stepwise.Expr

/-! ## Operators and words -/

/-- The operators of disjunctions. -/
def eitherSigns : List Token := [.name "or", .mark .either]

/-- The operators of conjunctions. -/
def bothSigns : List Token := [.name "and", .mark .both]

/-- The operators of negations. -/
def notSigns : List Token := [.name "not", .mark .bang]

/-- The operators of sums. -/
def sumSigns : List (Token × Arith) := [(.mark .plus, .add), (.mark .minus, .sub)]

/-- The operators of products. -/
def productSigns : List (Token × Arith) :=
  [(.mark .times, .mul), (.mark .slash, .div), (.mark .doubleSlash, .floorDiv),
   (.mark .percent, .mod)]

/-- The operators of comparisons. Only `not in` has two tokens. -/
def relationSigns : List (List Token × Relation) :=
  [([.mark .equal], .eq), ([.mark .unequal], .ne), ([.mark .less], .lt), ([.mark .atMost], .le),
   ([.mark .greater], .gt), ([.mark .atLeast], .ge), ([.name "in"], .isIn),
   ([.name "not", .name "in"], .notIn)]

/-- The words that are literals. -/
def wordLiterals : List (String × Value) :=
  [("True", .bool true), ("true", .bool true), ("False", .bool false), ("false", .bool false),
   ("None", .null), ("null", .null)]

/-- The words that are operators. -/
def operatorWords : List String := ["and", "or", "not", "in"]

/-- A word that is the name of a variable or function. -/
def IsIdentifier (word : String) : Prop := word ∉ wordLiterals.map Prod.fst ∧ word ∉ operatorWords

/-! ## Derivations -/

/-- The parts of the grammar. Links are the relations of a comparison, each with the sum behind it. -/
inductive Part where
  | or | and | not | comparison | links | sum | term | unary | postfixed | primary | items

/-- What a part derives. -/
@[reducible] def Part.Tree : Part → Type
  | .items => List Expr
  | .links => List (Relation × Expr)
  | _ => Expr

/-- Tokens derive a tree. The number is the nesting of the derivation. -/
inductive Derives : (part : Part) → Nat → List Token → part.Tree → Prop where
  | disjunct {d : Nat} {ts : List Token} {x : Expr} (h : Derives .and d ts x) : Derives .or d ts x
  | or {d d' : Nat} {ts ts' : List Token} {x y : Expr} {t : Token} (left : Derives .or d ts x)
      (sign : t ∈ eitherSigns) (right : Derives .and d' ts' y) :
      Derives .or (max d d') (ts ++ t :: ts') (.or x y)
  | conjunct {d : Nat} {ts : List Token} {x : Expr} (h : Derives .not d ts x) : Derives .and d ts x
  | and {d d' : Nat} {ts ts' : List Token} {x y : Expr} {t : Token} (left : Derives .and d ts x)
      (sign : t ∈ bothSigns) (right : Derives .not d' ts' y) :
      Derives .and (max d d') (ts ++ t :: ts') (.and x y)
  | compared {d : Nat} {ts : List Token} {x : Expr} (h : Derives .comparison d ts x) :
      Derives .not d ts x
  | not {d : Nat} {ts : List Token} {x : Expr} {t : Token} (sign : t ∈ notSigns)
      (operand : Derives .not d ts x) : Derives .not (d + 1) (t :: ts) (.not x)
  | alone {d : Nat} {ts : List Token} {x : Expr} (h : Derives .sum d ts x) :
      Derives .comparison d ts x
  | compare {d d' : Nat} {ts ts' : List Token} {x : Expr} {ls : List (Relation × Expr)}
      (first : Derives .sum d ts x) (links : Derives .links d' ts' ls) (nonempty : ls ≠ []) :
      Derives .comparison (max d d') (ts ++ ts') (.compare x ls)
  | noLinks : Derives .links 0 [] []
  | link {d d' : Nat} {signs ts ts' : List Token} {relation : Relation} {x : Expr}
      {ls : List (Relation × Expr)} (sign : (signs, relation) ∈ relationSigns)
      (operand : Derives .sum d ts x) (links : Derives .links d' ts' ls) :
      Derives .links (max d d') (signs ++ ts ++ ts') ((relation, x) :: ls)
  | summand {d : Nat} {ts : List Token} {x : Expr} (h : Derives .term d ts x) : Derives .sum d ts x
  | sum {d d' : Nat} {ts ts' : List Token} {x y : Expr} {t : Token} {op : Arith}
      (left : Derives .sum d ts x) (sign : (t, op) ∈ sumSigns) (right : Derives .term d' ts' y) :
      Derives .sum (max d d') (ts ++ t :: ts') (.arith op x y)
  | factor {d : Nat} {ts : List Token} {x : Expr} (h : Derives .unary d ts x) : Derives .term d ts x
  | product {d d' : Nat} {ts ts' : List Token} {x y : Expr} {t : Token} {op : Arith}
      (left : Derives .term d ts x) (sign : (t, op) ∈ productSigns)
      (right : Derives .unary d' ts' y) :
      Derives .term (max d d') (ts ++ t :: ts') (.arith op x y)
  | unsigned {d : Nat} {ts : List Token} {x : Expr} (h : Derives .postfixed d ts x) :
      Derives .unary d ts x
  | minus {d : Nat} {ts : List Token} {x : Expr} (operand : Derives .unary d ts x) :
      Derives .unary (d + 1) (.mark .minus :: ts) (.neg x)
  | plus {d : Nat} {ts : List Token} {x : Expr} (operand : Derives .unary d ts x) :
      Derives .unary (d + 1) (.mark .plus :: ts) x
  | whole {d : Nat} {ts : List Token} {x : Expr} (h : Derives .primary d ts x) :
      Derives .postfixed d ts x
  | index {d d' : Nat} {ts ts' : List Token} {x y : Expr} (target : Derives .postfixed d ts x)
      (position : Derives .or d' ts' y) :
      Derives .postfixed (max d (d' + 1))
        (ts ++ .mark .openBracket :: (ts' ++ [.mark .closeBracket])) (.index x y)
  | int (n : Int) : Derives .primary 0 [.int n] (.lit (.int n))
  | float (x : Float) : Derives .primary 0 [.float x] (.lit (.float x))
  | str (s : String) : Derives .primary 0 [.str s] (.lit (.str s))
  | word {word : String} {value : Value} (known : (word, value) ∈ wordLiterals) :
      Derives .primary 0 [.name word] (.lit value)
  | var {word : String} (free : IsIdentifier word) : Derives .primary 0 [.name word] (.var word)
  | call {d : Nat} {ts : List Token} {word : String} {es : List Expr} (free : IsIdentifier word)
      (arguments : Derives .items d ts es) :
      Derives .primary (d + 1)
        (.name word :: .mark .openParen :: (ts ++ [.mark .closeParen])) (.call word es)
  | group {d : Nat} {ts : List Token} {x : Expr} (inner : Derives .or d ts x) :
      Derives .primary (d + 1) (.mark .openParen :: (ts ++ [.mark .closeParen])) x
  | list {d : Nat} {ts : List Token} {es : List Expr} (items : Derives .items d ts es) :
      Derives .primary (d + 1) (.mark .openBracket :: (ts ++ [.mark .closeBracket])) (.list es)
  | noItems : Derives .items 0 [] []
  | lastItem {d : Nat} {ts : List Token} {x : Expr} (item : Derives .or d ts x) :
      Derives .items d ts [x]
  | item {d d' : Nat} {ts ts' : List Token} {x : Expr} {es : List Expr} (item : Derives .or d ts x)
      (items : Derives .items d' ts' es) :
      Derives .items (max d d') (ts ++ .mark .comma :: ts') (x :: es)

/-! ## First tokens -/

/-- How much a token can begin: primary expressions, signs, negations, or nothing. -/
def opening : Token → Nat
  | .name "not" | .mark .bang => 1
  | .mark .plus | .mark .minus => 2
  | .int _ | .float _ | .str _ | .name _ | .mark .openParen | .mark .openBracket => 3
  | .mark _ => 0

/-- What the first token of a part must at least begin. Links and items may have none. -/
def Part.atLeast : Part → Nat
  | .or | .and | .not => 1
  | .comparison | .sum | .term | .unary => 2
  | .postfixed | .primary => 3
  | .links | .items => 0

/-- The tokens begin with one that begins as much as the part must. -/
def Part.Begins (part : Part) (tokens : List Token) : Prop :=
  ∃ t rest, tokens = t :: rest ∧ part.atLeast ≤ opening t

theorem Part.Begins.append {part : Part} {tokens : List Token} (h : part.Begins tokens)
    (more : List Token) : part.Begins (tokens ++ more) := by
  obtain ⟨t, rest, rfl, ht⟩ := h
  exact ⟨t, rest ++ more, rfl, ht⟩

theorem Part.Begins.mono {part wider : Part} {tokens : List Token} (h : part.Begins tokens)
    (hle : wider.atLeast ≤ part.atLeast) : wider.Begins tokens := by
  obtain ⟨t, rest, rfl, ht⟩ := h
  exact ⟨t, rest, rfl, Nat.le_trans hle ht⟩

theorem opening_of_notSigns {t : Token} (h : t ∈ notSigns) : opening t = 1 := by
  simp only [notSigns, List.mem_cons, List.not_mem_nil, or_false] at h
  rcases h with rfl | rfl <;> rfl

theorem opening_of_ne_not {word : String} (h : word ≠ "not") : opening (.name word) = 3 := by
  unfold opening
  split <;> simp_all

theorem IsIdentifier.ne_not {word : String} (h : IsIdentifier word) : word ≠ "not" := by
  rintro rfl
  exact h.2 (by decide)

theorem ne_not_of_wordLiterals {word : String} {value : Value}
    (h : (word, value) ∈ wordLiterals) : word ≠ "not" := by
  rintro rfl
  simp [wordLiterals] at h

/-- Only links and items can be empty, and the others begin with a token that fits. -/
theorem Derives.begins {part : Part} {d : Nat} {ts : List Token} {x : part.Tree}
    (h : Derives part d ts x) : part.atLeast = 0 ∨ part.Begins ts := by
  induction h with
  | noLinks | link | noItems | lastItem | item => exact .inl rfl
  | disjunct _ ih | conjunct _ ih | alone _ ih | summand _ ih | factor _ ih | whole _ ih =>
    exact .inr (ih.resolve_left (by decide))
  | compared _ ih | unsigned _ ih => exact .inr ((ih.resolve_left (by decide)).mono (by decide))
  | or _ _ _ ih | and _ _ _ ih | sum _ _ _ ih | product _ _ _ ih =>
    exact .inr ((ih.resolve_left (by decide)).append _)
  | compare _ _ _ ih | index _ _ ih => exact .inr ((ih.resolve_left (by decide)).append _)
  | not sign => exact .inr ⟨_, _, rfl, Nat.le_of_eq (opening_of_notSigns sign).symm⟩
  | minus | plus => exact .inr ⟨_, _, rfl, by decide⟩
  | int | float | str | group | list => exact .inr ⟨_, _, rfl, Nat.le_refl 3⟩
  | word known =>
    exact .inr ⟨_, _, rfl, Nat.le_of_eq (opening_of_ne_not (ne_not_of_wordLiterals known)).symm⟩
  | var free | call free =>
    exact .inr ⟨_, _, rfl, Nat.le_of_eq (opening_of_ne_not free.ne_not).symm⟩

/-! ## Single operators and words -/

theorem eitherLink_eq_some {t : Token} {join : Expr → Expr → Expr} :
    eitherLink t = some join ↔ t ∈ eitherSigns ∧ join = .or := by
  constructor
  · intro h
    unfold eitherLink at h
    split at h <;> cases h <;> exact ⟨by decide, rfl⟩
  · rintro ⟨ht, rfl⟩
    simp only [eitherSigns, List.mem_cons, List.not_mem_nil, or_false] at ht
    rcases ht with rfl | rfl <;> rfl

theorem bothLink_eq_some {t : Token} {join : Expr → Expr → Expr} :
    bothLink t = some join ↔ t ∈ bothSigns ∧ join = .and := by
  constructor
  · intro h
    unfold bothLink at h
    split at h <;> cases h <;> exact ⟨by decide, rfl⟩
  · rintro ⟨ht, rfl⟩
    simp only [bothSigns, List.mem_cons, List.not_mem_nil, or_false] at ht
    rcases ht with rfl | rfl <;> rfl

theorem sumLink_eq_some {t : Token} {join : Expr → Expr → Expr} :
    sumLink t = some join ↔ ∃ op, (t, op) ∈ sumSigns ∧ join = .arith op := by
  constructor
  · intro h
    unfold sumLink at h
    split at h <;> cases h <;> exact ⟨_, by simp [sumSigns], rfl⟩
  · rintro ⟨op, ht, rfl⟩
    simp only [sumSigns, List.mem_cons, List.not_mem_nil, or_false, Prod.mk.injEq] at ht
    rcases ht with ⟨rfl, rfl⟩ | ⟨rfl, rfl⟩ <;> rfl

theorem productLink_eq_some {t : Token} {join : Expr → Expr → Expr} :
    productLink t = some join ↔ ∃ op, (t, op) ∈ productSigns ∧ join = .arith op := by
  constructor
  · intro h
    unfold productLink at h
    split at h <;> cases h <;> exact ⟨_, by simp [productSigns], rfl⟩
  · rintro ⟨op, ht, rfl⟩
    simp only [productSigns, List.mem_cons, List.not_mem_nil, or_false, Prod.mk.injEq] at ht
    rcases ht with ⟨rfl, rfl⟩ | ⟨rfl, rfl⟩ | ⟨rfl, rfl⟩ | ⟨rfl, rfl⟩ <;> rfl

theorem relation?_eq_some {tokens rest : List Token} {relation : Relation} :
    relation? tokens = some (relation, rest) ↔
      ∃ signs, (signs, relation) ∈ relationSigns ∧ tokens = signs ++ rest := by
  constructor
  · intro h
    unfold relation? at h
    split at h <;> cases h <;> exact ⟨_, by simp [relationSigns]; rfl, rfl⟩
  · rintro ⟨signs, hs, rfl⟩
    simp only [relationSigns, List.mem_cons, List.not_mem_nil, or_false, Prod.mk.injEq] at hs
    rcases hs with ⟨rfl, rfl⟩ | ⟨rfl, rfl⟩ | ⟨rfl, rfl⟩ | ⟨rfl, rfl⟩ | ⟨rfl, rfl⟩ | ⟨rfl, rfl⟩ |
      ⟨rfl, rfl⟩ | ⟨rfl, rfl⟩ <;> rfl

theorem wordLiteral?_eq_some {word : String} {value : Value} :
    wordLiteral? word = some value ↔ (word, value) ∈ wordLiterals := by
  constructor
  · intro h
    unfold wordLiteral? at h
    split at h <;> cases h <;> simp [wordLiterals]
  · intro h
    simp only [wordLiterals, List.mem_cons, List.not_mem_nil, or_false, Prod.mk.injEq] at h
    rcases h with ⟨rfl, rfl⟩ | ⟨rfl, rfl⟩ | ⟨rfl, rfl⟩ | ⟨rfl, rfl⟩ | ⟨rfl, rfl⟩ | ⟨rfl, rfl⟩ <;> rfl

/-- The reader takes a word for an identifier if it is no literal and no operator. -/
theorem isIdentifier_iff {word : String} :
    IsIdentifier word ↔ wordLiteral? word = none ∧ isOperatorWord word = false := by
  have hw : word ∉ wordLiterals.map Prod.fst ↔ wordLiteral? word = none := by
    rw [Option.eq_none_iff_forall_ne_some]
    simp only [Ne, wordLiteral?_eq_some, List.mem_map, Prod.exists]
    grind
  have ho : word ∉ operatorWords ↔ isOperatorWord word = false := by
    simp [operatorWords, isOperatorWord]
    grind
  rw [IsIdentifier, hw, ho]

end Stepwise.Expr
