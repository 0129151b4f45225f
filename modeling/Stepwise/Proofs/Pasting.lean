import Mathlib.Algebra.Ring.Int.Defs
import Mathlib.Algebra.Ring.Nat
import Stepwise.Expr.Eval
import Stepwise.Proofs.Grammar.Complete

/-!
# Data pasted into expressions

A placeholder is replaced by the text its value is shown as, which is the compact form of data, and
the text may end up in an expression. Most data means itself there: the escapes of strings are read
back, the sign of a negative number becomes a negation, and the words for truths and for nothing are
literals.

* `Value.Written`: data that is written with what the reader of expressions knows.
* `Expr.Spells`: what characters are read as, in front of other items.
* `Expr.Means`: the characters are an expression with this value.
* `Value.Written.means`: data means itself, by induction over the data.
-/

namespace Stepwise

/-- The text has no control characters below U+0020 but tabs, line feeds and carriage returns. -/
def Text.Printable (s : String) : Prop :=
  ∀ c ∈ s.toList, c.toNat < 32 → c = '\t' ∨ c = '\n' ∨ c = '\r'

instance (s : String) : Decidable (Text.Printable s) := List.decidableBAll _ _

/-- No digit is a blank. -/
theorem Text.isBlank_of_isDigit {c : Char} (h : c.isDigit = true) : isBlank c = false := by
  simp only [Char.isDigit, Bool.and_eq_true, decide_eq_true_eq, ge_iff_le, UInt32.le_iff_toNat_le]
    at h
  refine Bool.eq_false_iff.mpr fun hb => ?_
  simp only [isBlank, Bool.or_eq_true, Bool.and_eq_true, decide_eq_true_eq, beq_iff_eq] at hb
  have hzero : '0'.val.toNat = 48 := rfl
  have hnine : '9'.val.toNat = 57 := rfl
  have hcode : c.toNat = c.val.toNat := rfl
  omega

/-- Nothing, truths, integers whose size has 63 bits, texts with few controls, and lists of those,
so many deep at most. -/
inductive Value.Written : Nat → Value → Prop
  | null {depth : Nat} : Written depth .null
  | bool {depth : Nat} (b : Bool) : Written depth (.bool b)
  | int {depth : Nat} {n : Int} : -(2 ^ 63) < n → n < 2 ^ 63 → Written depth (.int n)
  | str {depth : Nat} {s : String} : Text.Printable s → Written depth (.str s)
  | list {depth : Nat} {items : List Value} : (∀ v ∈ items, Written depth v) →
      Written (depth + 1) (.list items)

namespace Expr

/-! ## Tokens in a row -/

/-- What may stand behind an item: another item, the end of the list, or nothing. -/
def EndsItem (rest : List Char) : Prop := ∀ c ∈ rest.head?, c = ',' ∨ c = ']'

/-- In front of anything that ends an item, the characters are read as these tokens. -/
def Spells (cs : List Char) (ts : List Token) : Prop :=
  ∀ rest, EndsItem rest → tokens (cs ++ rest) = (tokens rest).map (ts ++ ·)

theorem EndsItem.nil : EndsItem [] := fun _ h => nomatch h

theorem EndsItem.comma (cs : List Char) : EndsItem (',' :: cs) := by
  rintro c ⟨⟩
  exact .inl rfl

theorem EndsItem.closeBracket (cs : List Char) : EndsItem (']' :: cs) := by
  rintro c ⟨⟩
  exact .inr rfl

/-- A token at the beginning is followed by the tokens of the rest. -/
theorem tokens_cons {c : Char} {cs rest : List Char} {t : Token} (hc : Text.isBlank c = false)
    (h : next c cs = .ok (t, rest)) : tokens (c :: cs) = (tokens rest).map (t :: ·) := by
  have hdrop : (c :: cs).dropWhile Text.isBlank = c :: cs :=
    List.dropWhile_cons_of_neg (by rw [hc]; exact Bool.false_ne_true)
  rw [tokens]
  split
  · next hnil => cases hdrop.symm.trans hnil
  · next d ds hds =>
    obtain ⟨rfl, rfl⟩ := List.cons.inj (hdrop.symm.trans hds)
    split
    · next e he => cases h.symm.trans he
    · next t' rest' ht =>
      cases h.symm.trans ht
      rfl

namespace Spells

variable {cs cs' : List Char} {ts ts' : List Token}

theorem nil : Spells [] [] := by
  intro rest _
  rw [List.nil_append]
  cases tokens rest with
  | ok ts => rfl
  | error c => rfl

/-- A mark of one character, in front of other characters. -/
theorem cons {c : Char} {t : Token} (hc : Text.isBlank c = false)
    (ht : ∀ rest, next c rest = .ok (t, rest)) (h : Spells cs ts) : Spells (c :: cs) (t :: ts) := by
  intro rest hrest
  rw [List.cons_append, tokens_cons hc (ht _), h rest hrest, Except.map_map]
  rfl

/-- Characters up to the end of an item, and those that follow. -/
theorem append (h : Spells cs ts) (h' : Spells cs' ts') (hends : ∀ rest, EndsItem (cs' ++ rest)) :
    Spells (cs ++ cs') (ts ++ ts') := by
  intro rest hrest
  rw [List.append_assoc, h _ (hends rest), h' rest hrest, Except.map_map]
  congr 1
  funext more
  exact (List.append_assoc _ _ _).symm

/-- A single token. -/
theorem token {c : Char} {t : Token} (hc : Text.isBlank c = false)
    (ht : ∀ rest, EndsItem rest → next c (cs ++ rest) = .ok (t, rest)) : Spells (c :: cs) [t] := by
  intro rest hrest
  rw [List.cons_append, tokens_cons hc (ht rest hrest)]
  rfl

/-- The whole text. -/
theorem tokenize {text : String} (h : Spells text.toList ts) : Expr.tokenize text = .ok ts := by
  have := h [] .nil
  rw [List.append_nil] at this
  rw [Expr.tokenize, this, tokens]
  show Except.ok (ts ++ []) = _
  rw [List.append_nil]

end Spells

/-! ## Single tokens -/

theorem next_comma (rest : List Char) : next ',' rest = .ok (.mark .comma, rest) := rfl

theorem next_openBracket (rest : List Char) : next '[' rest = .ok (.mark .openBracket, rest) := rfl

theorem next_closeBracket (rest : List Char) : next ']' rest = .ok (.mark .closeBracket, rest) :=
  rfl

theorem next_minus (rest : List Char) : next '-' rest = .ok (.mark .minus, rest) := rfl

/-- No name goes on into the end of an item. -/
theorem EndsItem.not_continuesName {rest : List Char} (h : EndsItem rest) :
    ∀ c ∈ rest.head?, continuesName c = false := by
  intro c hc
  rcases h c hc with rfl | rfl
  · decide
  · decide

/-- A name goes on as long as it can. -/
theorem next_name {c : Char} {cs rest : List Char} (hd : c.isDigit = false)
    (hq : (c == '\'' || c == '"') = false) (hb : beginsName c = true)
    (hc : ∀ d ∈ cs, continuesName d = true) (hrest : ∀ d ∈ rest.head?, continuesName d = false) :
    next c (cs ++ rest) = .ok (.name (String.ofList (c :: cs)), rest) := by
  have htake : rest.takeWhile continuesName = [] := by
    cases rest with
    | nil => rfl
    | cons d ds => exact List.takeWhile_cons_of_neg (by rw [hrest d rfl]; exact Bool.false_ne_true)
  have hdrop : rest.dropWhile continuesName = rest := by
    cases rest with
    | nil => rfl
    | cons d ds => exact List.dropWhile_cons_of_neg (by rw [hrest d rfl]; exact Bool.false_ne_true)
  unfold next
  rw [if_neg (by rw [hd]; exact Bool.false_ne_true), if_neg (by rw [hq]; exact Bool.false_ne_true),
    if_pos hb, List.takeWhile_append_of_pos hc, List.dropWhile_append_of_pos hc, htake, hdrop,
    List.append_nil]

theorem readQuoted_close (quote : Char) (cs : List Char) :
    readQuoted quote (quote :: cs) = some ([], cs) := by
  rw [readQuoted.eq_def]
  exact if_pos rfl

theorem readQuoted_escaped {quote : Char} (hquote : '\\' ≠ quote) (c : Char) (cs : List Char) :
    readQuoted quote ('\\' :: c :: cs) =
      (readQuoted quote cs).map fun p => (unescape c :: p.1, p.2) := by
  rw [readQuoted.eq_def]
  dsimp only
  rw [if_neg hquote, if_pos rfl]

theorem readQuoted_plain {quote c : Char} (hquote : c ≠ quote) (hslash : c ≠ '\\')
    (cs : List Char) :
    readQuoted quote (c :: cs) = (readQuoted quote cs).map fun p => (c :: p.1, p.2) := by
  rw [readQuoted.eq_def]
  dsimp only
  rw [if_neg hquote, if_neg hslash]

/-- A character is read back from its escape. -/
theorem readQuoted_escape {c : Char} (h : c.toNat < 32 → c = '\t' ∨ c = '\n' ∨ c = '\r')
    (cs : List Char) :
    readQuoted '"' (Json.escape c ++ cs) = (readQuoted '"' cs).map fun p => (c :: p.1, p.2) := by
  unfold Json.escape
  split
  · exact readQuoted_escaped (by decide) '"' cs
  · exact readQuoted_escaped (by decide) '\\' cs
  · exact absurd (h (by decide)) (by decide)
  · exact readQuoted_escaped (by decide) 't' cs
  · exact readQuoted_escaped (by decide) 'n' cs
  · exact absurd (h (by decide)) (by decide)
  · exact readQuoted_escaped (by decide) 'r' cs
  · next hquote hslash _ htab hfeed _ hreturn =>
    split
    · next hsmall => exact ((h hsmall).elim htab fun h => h.elim hfeed hreturn).elim
    · exact readQuoted_plain hquote hslash cs

theorem readQuoted_flatMap_escape {cs : List Char}
    (h : ∀ c ∈ cs, c.toNat < 32 → c = '\t' ∨ c = '\n' ∨ c = '\r') (rest : List Char) :
    readQuoted '"' (cs.flatMap Json.escape ++ '"' :: rest) = some (cs, rest) := by
  induction cs with
  | nil => exact readQuoted_close '"' rest
  | cons c cs ih =>
    obtain ⟨hc, hcs⟩ := List.forall_mem_cons.mp h
    rw [List.flatMap_cons, List.append_assoc, readQuoted_escape hc, ih hcs]
    rfl

theorem next_string {s : String} (h : Text.Printable s) (rest : List Char) :
    next '"' (s.toList.flatMap Json.escape ++ ['"'] ++ rest) = .ok (.str s, rest) := by
  rw [List.append_assoc, List.singleton_append, next, if_neg (by decide), if_pos (by decide),
    readQuoted_flatMap_escape h]
  dsimp only
  rw [String.ofList_toList]

/-! ## Numbers -/

/-- Nothing in front of these characters would make an integer longer, or a double of it. -/
def EndsInteger : List Char → Prop
  | [] => True
  | c :: cs => c.isDigit = false ∧ c ≠ '_' ∧ ∀ d ∈ cs.head?,
    (c = '.' → d.isDigit = false) ∧ (c = 'e' ∨ c = 'E' → d.isDigit = false ∧ d ≠ '-' ∧ d ≠ '+')

/-- Most characters end an integer, whatever follows them. -/
theorem EndsInteger.of_head {rest : List Char}
    (h : ∀ c ∈ rest.head?, c.isDigit = false ∧ c ∉ ['_', '.', 'e', 'E']) : EndsInteger rest := by
  cases rest with
  | nil => trivial
  | cons c cs =>
    obtain ⟨hdigit, hne⟩ := h c rfl
    simp only [List.mem_cons, List.not_mem_nil, or_false, not_or] at hne
    obtain ⟨hunderscore, hpoint, he, hcapital⟩ := hne
    exact ⟨hdigit, hunderscore, fun d _ => ⟨fun h => absurd h hpoint, fun h =>
      (h.elim he hcapital).elim⟩⟩

theorem EndsItem.endsInteger {rest : List Char} (h : EndsItem rest) : EndsInteger rest := by
  refine .of_head fun c hc => ?_
  rcases h c hc with rfl | rfl
  · decide
  · decide

theorem EndsInteger.numberLexeme {rest : List Char} (h : EndsInteger rest) (fractional : Bool) :
    numberLexeme fractional rest = ([], fractional, rest) := by
  cases rest with
  | nil => rfl
  | cons c cs =>
    obtain ⟨hdigit, hunderscore, hnext⟩ := h
    rw [Expr.numberLexeme.eq_def]
    dsimp only
    rw [if_neg (by simp [hdigit, hunderscore])]
    cases cs with
    | nil => rfl
    | cons d ds =>
      obtain ⟨hpoint, hmark⟩ := hnext d rfl
      dsimp only
      -- Neither a decimal point with a digit behind it goes on, nor an exponent.
      rw [if_neg, if_neg]
      · simp only [Bool.and_eq_true, Bool.or_eq_true, beq_iff_eq]
        rintro ⟨he, hd⟩
        obtain ⟨hdigit, hminus, hplus⟩ := hmark he
        simp [hdigit, hminus, hplus] at hd
      · simp only [Bool.and_eq_true, beq_iff_eq]
        rintro ⟨⟨hc, -⟩, hd⟩
        rw [hpoint hc] at hd
        cases hd

/-- The digits of a number, with underscores among them, end where nothing makes it longer. -/
theorem numberLexeme_digits {digits rest : List Char}
    (h : ∀ c ∈ digits, c.isDigit = true ∨ c = '_') (hrest : EndsInteger rest) (fractional : Bool) :
    numberLexeme fractional (digits ++ rest) = (digits, fractional, rest) := by
  induction digits with
  | nil => exact hrest.numberLexeme fractional
  | cons c digits ih =>
    obtain ⟨hc, hdigits⟩ := List.forall_mem_cons.mp h
    rw [List.cons_append, numberLexeme.eq_def]
    dsimp only
    rw [if_pos (by simpa using hc), ih hdigits]

theorem digitsValue_eq (digits : List Char) :
    Double.digitsValue digits = Nat.ofDigitChars 10 digits 0 := by
  have h (digits : List Char) (m : Nat) :
      digits.foldl (fun n c => n * 10 + (c.toNat - '0'.toNat)) m =
        Nat.ofDigitChars 10 digits m := by
    induction digits generalizing m with
    | nil => rfl
    | cons c digits ih => rw [List.foldl_cons, ih, Nat.ofDigitChars_cons, Nat.mul_comm]
  exact h digits 0

/-- The characters are an integer in decimal, maybe with underscores behind its first digit. -/
structure WritesInt (n : Nat) (c : Char) (cs : List Char) : Prop where
  first : c.isDigit = true
  others : ∀ d ∈ cs, d.isDigit = true ∨ d = '_'
  value : Nat.ofDigitChars 10 (c :: cs.filter (· != '_')) 0 = n

theorem writesInt_toDigits (n : Nat) : ∃ c cs, Nat.toDigits 10 n = c :: cs ∧ WritesInt n c cs := by
  have hall : ∀ c ∈ Nat.toDigits 10 n, c.isDigit = true :=
    fun _ h => Nat.isDigit_of_mem_toDigits (by decide) (by decide) h
  obtain ⟨c, cs, hdigits⟩ := List.exists_cons_of_ne_nil (Nat.toDigits_ne_nil (n := n) (b := 10))
  obtain ⟨hc, hcs⟩ := List.forall_mem_cons.mp (hdigits ▸ hall)
  refine ⟨c, cs, hdigits, hc, fun d hd => .inl (hcs d hd), ?_⟩
  have hfilter : cs.filter (· != '_') = cs := by
    refine List.filter_eq_self.mpr fun d hd => ?_
    rw [bne_iff_ne]
    rintro rfl
    exact absurd (hcs _ hd) (by decide)
  rw [hfilter, ← hdigits, Nat.ofDigitChars_toDigits (by decide) (by decide)]

namespace WritesInt

variable {n : Nat} {c : Char} {cs rest : List Char}

/-- An integer is read as its number, if it has 63 bits. -/
theorem numberToken (h : WritesInt n c cs) :
    numberToken (c :: cs) false =
      if n < 2 ^ 63 then .ok (.int n)
      else .error (.badNumber (String.ofList (c :: cs.filter (· != '_')))) := by
  have hfilter : (c :: cs).filter (· != '_') = c :: cs.filter (· != '_') := by
    refine List.filter_cons_of_pos ?_
    rw [bne_iff_ne]
    rintro rfl
    cases h.first
  have hall : (c :: cs.filter (· != '_')).all Char.isDigit = true := by
    refine List.all_eq_true.mpr (List.forall_mem_cons.mpr ⟨h.first, fun d hd => ?_⟩)
    obtain ⟨hmem, hne⟩ := List.mem_filter.mp hd
    exact (h.others d hmem).resolve_right (bne_iff_ne.mp hne)
  -- It begins with a digit, so there is no sign to be read off.
  have hsign : Double.readSign (c :: cs.filter (· != '_')) = (false, c :: cs.filter (· != '_')) := by
    unfold Double.readSign
    split
    · next heq =>
      cases heq
      cases h.first
    · next heq =>
      cases heq
      cases h.first
    · rfl
  have hread : Double.readInt64 (String.ofList (c :: cs.filter (· != '_'))) =
      if n < 2 ^ 63 then some (n : Int) else none := by
    unfold Double.readInt64
    rw [String.toList_ofList, hsign]
    dsimp only
    rw [if_neg (by rw [hall]; simp), if_neg Bool.false_ne_true, digitsValue_eq, h.value]
    refine if_congr ?_ rfl rfl
    simp only [Bool.and_eq_true, decide_eq_true_eq, Nat.pow_eq]
    omega
  unfold Expr.numberToken
  rw [hfilter]
  dsimp only
  rw [if_neg Bool.false_ne_true, hread]
  by_cases hn : n < 2 ^ 63
  · rw [if_pos hn, if_pos hn]
  · rw [if_neg hn, if_neg hn]

theorem next (h : WritesInt n c cs) (hrest : EndsInteger rest) :
    next c (cs ++ rest) =
      if n < 2 ^ 63 then .ok (.int n, rest)
      else .error (.badNumber (String.ofList (c :: cs.filter (· != '_')))) := by
  unfold Expr.next
  rw [if_pos h.first, ← List.cons_append, numberLexeme_digits _ hrest]
  · dsimp only
    rw [h.numberToken]
    split
    · rfl
    · rfl
  · exact List.forall_mem_cons.mpr ⟨.inl h.first, h.others⟩

end WritesInt

theorem spells_toDigits {n : Nat} (h : n < 2 ^ 63) : Spells (Nat.toDigits 10 n) [.int n] := by
  obtain ⟨c, cs, hdigits, hint⟩ := writesInt_toDigits n
  rw [hdigits]
  refine .token (Text.isBlank_of_isDigit hint.first) fun rest hrest => ?_
  rw [hint.next hrest.endsInteger, if_pos h]

/-! ## Values -/

/-- The characters are an expression, of a nesting that fits, with this value in every store. -/
def Means (cs : List Char) (depth : Nat) (v : Value) : Prop :=
  ∃ ts d e, Spells cs ts ∧ d ≤ depth ∧ Derives .or d ts e ∧ ∀ store, eval store e = .ok v

/-- The characters are items, of a nesting that fits, with these values in every store. -/
def MeansItems (cs : List Char) (depth : Nat) (vs : List Value) : Prop :=
  ∃ ts d es, Spells cs ts ∧ d ≤ depth ∧ Derives .items d ts es ∧ ∀ store, evalAll store es = .ok vs

theorem Derives.ofUnary {d : Nat} {ts : List Token} {e : Expr} (h : Derives .unary d ts e) :
    Derives .or d ts e :=
  .disjunct (.conjunct (.compared (.alone (.summand (.factor h)))))

theorem Derives.ofPrimary {d : Nat} {ts : List Token} {e : Expr} (h : Derives .primary d ts e) :
    Derives .or d ts e := .ofUnary (.unsigned (.whole h))

variable {depth : Nat}

/-- A literal of one token. -/
theorem Means.literal {cs : List Char} {t : Token} {v : Value} (h : Spells cs [t])
    (hd : Derives .primary 0 [t] (.lit v)) : Means cs depth v :=
  ⟨[t], 0, .lit v, h, Nat.zero_le _, hd.ofPrimary, fun store => by rw [eval]⟩

theorem Means.word (word : String) (c : Char) (cs : List Char) {v : Value}
    (hword : word = String.ofList (c :: cs)) (hblank : Text.isBlank c = false)
    (hd : c.isDigit = false) (hq : (c == '\'' || c == '"') = false) (hb : beginsName c = true)
    (hc : cs.all continuesName = true) (hv : (word, v) ∈ wordLiterals) :
    Means word.toList depth v := by
  subst hword
  rw [String.toList_ofList]
  refine .literal (.token hblank fun rest hrest => ?_) (.word hv)
  exact next_name hd hq hb (List.all_eq_true.mp hc) hrest.not_continuesName

theorem Means.string {s : String} (h : Text.Printable s) :
    Means (Json.string s).toList depth (.str s) := by
  rw [Json.string, String.toList_ofList]
  exact .literal (.token (by decide) fun rest _ => next_string h rest) (.str s)

theorem Means.natural {n : Nat} (h : n < 2 ^ 63) :
    Means (Nat.toDigits 10 n) depth (.int n) := .literal (spells_toDigits h) (.int n)

theorem eval_neg {store : Store} {operand : Expr} {v : Value} {x y : Num}
    (hv : eval store operand = .ok v) (hx : Num.ofValue? v = some x) (hy : x.neg = .ok y) :
    eval store (.neg operand) = lift y.toValue := by
  rw [eval, hv]
  dsimp only [bind, Except.bind]
  rw [hx]
  dsimp only
  rw [hy]

/-- The sign of a negative number is a negation, which makes the nesting deeper by one. -/
theorem Means.negative {n : Nat} (h : n < 2 ^ 63) :
    Means ('-' :: Nat.toDigits 10 n) (depth + 1) (.int (-n)) := by
  refine ⟨_, 1, .neg (.lit (.int n)), .cons (by decide) next_minus (spells_toDigits h), by omega,
    .ofUnary (.minus (.unsigned (.whole (.int n)))), fun store => ?_⟩
  have hrange : Num.inRange (n : Int) = true := by
    simp only [Num.inRange, Bool.and_eq_true, decide_eq_true_eq, Nat.pow_eq]
    omega
  have hnumber : Num.ofValue? (.int n) = some (.int (.ofInt n)) := congrArg some (if_pos hrange)
  have hword : (Int64.ofInt n).toInt = n := Int64.toInt_ofInt_of_le (by omega) (by omega)
  have hneg : Num.neg (.int (.ofInt n)) = .ok (.int (.ofInt (-n))) := by
    rw [Num.neg, hword]
    refine Num.checked_eq ?_
    simp only [Nat.pow_eq]
    omega
  rw [eval_neg (by rw [eval]) hnumber hneg, Num.toValue,
    Int64.toInt_ofInt_of_le (by omega) (by omega)]
  rfl

theorem Means.int {n : Int} (hlow : -(2 ^ 63) < n) (hhigh : n < 2 ^ 63) :
    Means (toString n).toList (depth + 1) (.int n) := by
  cases n with
  | ofNat n =>
    have htext : (toString (Int.ofNat n)).toList = Nat.toDigits 10 n := Nat.toList_repr
    have hn : (n : Int) < 2 ^ 63 := hhigh
    rw [htext]
    exact .natural (by omega)
  | negSucc n =>
    have htext : (toString (Int.negSucc n)).toList = '-' :: Nat.toDigits 10 (n + 1) := by
      show ("-" ++ Nat.repr (n + 1)).toList = _
      rw [String.toList_append, Nat.toList_repr]
      rfl
    rw [htext, Int.negSucc_eq]
    exact .negative (by omega)

/-- The texts of the items of a list, with commas between them. -/
theorem writeItems_cons_cons (v u : Value) (vs : List Value) :
    (Json.writeItems "" true (v :: u :: vs)).toList =
      (Json.compact v).toList ++ ',' :: (Json.writeItems "" true (u :: vs)).toList := by
  have h : Json.writeItems "" true (v :: u :: vs) =
      Json.compact v ++ "," ++ Json.writeItems "" true (u :: vs) := by
    rw [← Json.writeItems_append, String.append_empty]
    rfl
  rw [h, String.toList_append, String.toList_append, List.append_assoc]
  rfl

/-- Items that mean their values are a list of items. -/
theorem MeansItems.of_forall {vs : List Value}
    (h : ∀ v ∈ vs, Means (Json.compact v).toList depth v) :
    MeansItems (Json.writeItems "" true vs).toList depth vs := by
  -- By induction on the items; the last one has no comma behind it.
  induction vs with
  | nil => exact ⟨[], 0, [], .nil, Nat.zero_le _, .noItems, fun store => by rw [evalAll]⟩
  | cons v vs ih =>
    obtain ⟨hv, hvs⟩ := List.forall_mem_cons.mp h
    obtain ⟨ts, d, e, hspells, hd, hderives, heval⟩ := hv
    cases vs with
    | nil =>
      refine ⟨ts, d, [e], hspells, hd, .lastItem hderives, fun store => ?_⟩
      rw [evalAll, heval, evalAll]
      rfl
    | cons u vs =>
      obtain ⟨ts', d', es, hspells', hd', hderives', heval'⟩ := ih hvs
      rw [writeItems_cons_cons]
      refine ⟨ts ++ .mark .comma :: ts', max d d', e :: es, ?_, Nat.max_le.mpr ⟨hd, hd'⟩,
        .item hderives hderives', fun store => ?_⟩
      · refine hspells.append (.cons (by decide) next_comma hspells') fun rest => ?_
        exact EndsItem.comma _
      · rw [evalAll, heval, heval']
        rfl

/-- A list of items is nested deeper by one. -/
theorem Means.list {vs : List Value}
    (h : MeansItems (Json.writeItems "" true vs).toList depth vs) :
    Means (Json.compact (.list vs)).toList (depth + 1) (.list vs) := by
  obtain ⟨ts, d, es, hspells, hd, hderives, heval⟩ := h
  have htext : (Json.compact (.list vs)).toList =
      '[' :: ((Json.writeItems "" true vs).toList ++ [']']) := by
    have hitems : Json.writeItems "[" true vs = "[" ++ Json.writeItems "" true vs := by
      rw [← Json.writeItems_append, String.append_empty]
    show (Json.writeItems ("" ++ "[") true vs ++ "]").toList = _
    rw [String.empty_append, hitems, String.toList_append, String.toList_append]
    rfl
  rw [htext]
  refine ⟨.mark .openBracket :: (ts ++ [.mark .closeBracket]), d + 1, .list es,
    .cons (by decide) next_openBracket ?_, by omega, .ofPrimary (.list hderives), fun store => ?_⟩
  · refine hspells.append (.cons (by decide) next_closeBracket .nil) fun rest => ?_
    exact EndsItem.closeBracket _
  · rw [eval, heval]
    rfl

end Expr

/-- Data means itself. The sign of a number may be nested once more than the lists around it. -/
theorem Value.Written.means {depth : Nat} {v : Value} (h : v.Written depth) :
    Expr.Means (Json.compact v).toList (depth + 1) v := by
  induction h with
  | null =>
    show Expr.Means ("" ++ "null").toList _ _
    rw [String.empty_append]
    exact .word "null" 'n' "ull".toList rfl (by decide) (by decide) (by decide) (by decide)
      (by decide) (by simp [Expr.wordLiterals])
  | bool b =>
    show Expr.Means ("" ++ if b then "true" else "false").toList _ _
    rw [String.empty_append]
    cases b with
    | true =>
      exact .word "true" 't' "rue".toList rfl (by decide) (by decide)
        (by decide) (by decide) (by decide) (by simp [Expr.wordLiterals])
    | false =>
      exact .word "false" 'f' "alse".toList rfl (by decide) (by decide)
        (by decide) (by decide) (by decide) (by simp [Expr.wordLiterals])
  | int hlow hhigh =>
    show Expr.Means ("" ++ toString _).toList _ _
    rw [String.empty_append]
    exact .int hlow hhigh
  | str hs =>
    show Expr.Means ("" ++ Json.string _).toList _ _
    rw [String.empty_append]
    exact .string hs
  -- The items are one level deeper than the list.
  | list _ ih => exact .list (.of_forall ih)

/-- Data that a placeholder puts into an expression is read as an expression, whose value is the
data again in every store. Texts are shown without quotes, so they mean themselves only inside lists. -/
theorem Expr.display_means_itself {v : Value} (h : v.Written 63) (htext : v.text? = none) :
    ∃ e, Expr.parse v.display = .ok e ∧ ∀ store, Expr.eval store e = .ok v := by
  have hdisplay : v.display = Json.compact v := by
    cases v with
    | str s => cases htext
    | _ => rfl
  obtain ⟨ts, d, e, hspells, hd, hderives, heval⟩ := h.means
  refine ⟨e, ?_, heval⟩
  rw [hdisplay, Expr.parse, hspells.tokenize]
  exact Expr.ofTokens_eq_ok.mpr (hderives.anything_eq_ok hd)

/-- A list in a list, with the least number and a text whose characters are escaped. -/
theorem Expr.display_means_itself_nested :
    let v : Value := .list [.null, .bool true,
      .list [.int (-9223372036854775807), .str "a \"b\" \\ c\td\ne\rf"], .list []]
    v.Written 63 ∧ v.text? = none ∧
      v.display = "[null,true,[-9223372036854775807,\"a \\\"b\\\" \\\\ c\\td\\ne\\rf\"],[]]" ∧
      ∃ e, Expr.parse v.display = .ok e ∧ ∀ store, Expr.eval store e = .ok v := by
  intro v
  have hv : v.Written 63 := by
    refine .list fun u hu => ?_
    simp only [List.mem_cons, List.not_mem_nil, or_false] at hu
    rcases hu with rfl | rfl | rfl | rfl
    · exact .null
    · exact .bool true
    · refine .list fun w hw => ?_
      simp only [List.mem_cons, List.not_mem_nil, or_false] at hw
      rcases hw with rfl | rfl
      · exact .int (by decide) (by decide)
      · exact .str (by decide)
    · exact .list fun w hw => nomatch hw
  exact ⟨hv, rfl, by decide +kernel, display_means_itself hv rfl⟩

end Stepwise
