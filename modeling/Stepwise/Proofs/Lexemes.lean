import Stepwise.Proofs.Excerpt
import Stepwise.Proofs.Pasting

/-!
# Tokens written and read back

A token may be written in several ways: underscores may stand among the digits of an integer, and a
string may have either kind of quotes. Whatever way is chosen, tokens with blanks between them are
read back, since no token goes on into a blank. An integer that does not fit is never read, wherever
the reader comes to it.

* `Writes`, `Renders`: the ways to write a token, and tokens with blanks between them.
* `Scans`: how far the reader has come, and over which tokens.
* `Renders.scans`: the reader comes over tokens that are written out, by induction over them.
* `Renders.tokenize`: so reading undoes writing.
-/

namespace Stepwise

/-- No blank belongs to a name. -/
theorem Expr.continuesName_of_isBlank {c : Char} (h : Text.isBlank c = true) :
    continuesName c = false := by
  have hall : ∀ code ∈ Text.blankCodes, continuesName (Char.ofNat code) = false := by
    decide +kernel
  have := hall c.toNat (Text.mem_blankCodes h)
  rwa [Char.ofNat_toNat] at this

namespace Expr

variable {c : Char} {cs rest : List Char} {t : Token} {ts : List Token}

/-! ## Writing tokens -/

/-- A character of a string, with a backslash in front if it needs one. -/
def quotedChar (quote c : Char) : List Char := if c = quote ∨ c = '\\' then ['\\', c] else [c]

/-- The characters are a way to write the token. -/
inductive Writes : Token → List Char → Prop
  | int {n : Nat} {c : Char} {cs : List Char} : n < 2 ^ 63 → WritesInt n c cs →
      Writes (.int n) (c :: cs)
  | str {quote : Char} (s : String) : quote = '\'' ∨ quote = '"' →
      Writes (.str s) (quote :: (s.toList.flatMap (quotedChar quote) ++ [quote]))
  | name {c : Char} {cs : List Char} : beginsName c = true → (∀ d ∈ cs, continuesName d = true) →
      Writes (.name (String.ofList (c :: cs))) (c :: cs)
  | mark (m : Mark) : Writes (.mark m) m.text.toList

/-- The characters are the tokens, each written in some way, with blanks between neighbours and
maybe in front and behind. -/
inductive Renders : List Token → List Char → Prop
  | nil {gap : List Char} : (∀ c ∈ gap, Text.isBlank c = true) → Renders [] gap
  | cons {gap cs rest : List Char} {t : Token} {ts : List Token} :
      (∀ c ∈ gap, Text.isBlank c = true) → Writes t cs →
      (∀ c ∈ rest.head?, Text.isBlank c = true) → Renders ts rest →
      Renders (t :: ts) (gap ++ cs ++ rest)

/-! ## Reading a token -/

/-- What may stand behind a token that is written out: a blank, or nothing. -/
def EndsToken (rest : List Char) : Prop := ∀ c ∈ rest.head?, Text.isBlank c = true

theorem EndsToken.endsInteger (h : EndsToken rest) : EndsInteger rest := by
  refine .of_head fun c hc => ⟨?_, fun hmem => ?_⟩
  · refine Bool.eq_false_iff.mpr fun hdigit => ?_
    have := h c hc
    rw [Text.isBlank_of_isDigit hdigit] at this
    cases this
  · have hblank := h c hc
    simp only [List.mem_cons, List.not_mem_nil, or_false] at hmem
    rcases hmem with rfl | rfl | rfl | rfl
    all_goals exact absurd hblank (by decide)

theorem readQuoted_quotedChar {quote : Char} (hquote : quote = '\'' ∨ quote = '"') (c : Char)
    (cs : List Char) :
    readQuoted quote (quotedChar quote c ++ cs) =
      (readQuoted quote cs).map fun p => (c :: p.1, p.2) := by
  have hslash : '\\' ≠ quote := by
    rcases hquote with rfl | rfl
    · decide
    · decide
  unfold quotedChar
  split
  · rename_i hc
    -- It is the quote or a backslash, which are written with a backslash before them.
    have hescape : unescape c = c := by
      rcases hc with rfl | rfl
      · rcases hquote with rfl | rfl
        · rfl
        · rfl
      · rfl
    show readQuoted quote ('\\' :: c :: cs) = _
    rw [readQuoted_escaped hslash, hescape]
  · rename_i hc
    obtain ⟨hne, hplain⟩ := not_or.mp hc
    exact readQuoted_plain hne hplain cs

theorem readQuoted_flatMap_quotedChar {quote : Char} (hquote : quote = '\'' ∨ quote = '"')
    (cs rest : List Char) :
    readQuoted quote (cs.flatMap (quotedChar quote) ++ quote :: rest) = some (cs, rest) := by
  induction cs with
  | nil => exact readQuoted_close quote rest
  | cons c cs ih =>
    rw [List.flatMap_cons, List.append_assoc, readQuoted_quotedChar hquote, ih]
    rfl

/-- The longest mark that fits is the one that was written, since no mark goes on with a blank. -/
theorem readMark_text (m : Mark) (hrest : EndsToken rest) :
    readMark (m.text.toList ++ rest) = some (m, rest) := by
  cases rest with
  | nil => cases m <;> rfl
  | cons c cs =>
    have hne {d : Char} (hd : Text.isBlank d = false) : d ≠ c := by
      rintro rfl
      cases hd.symm.trans (hrest d rfl)
    have hslash : '/' ≠ c := hne (by decide)
    have hequal : '=' ≠ c := hne (by decide)
    cases m <;> simp [readMark, Mark.all, Mark.text, Text.behind?, hslash, hequal]

/-- A name begins with no digit, no quote and no blank. -/
theorem not_of_beginsName (h : beginsName c = true) :
    c.isDigit = false ∧ (c == '\'' || c == '"') = false ∧ Text.isBlank c = false := by
  refine ⟨Bool.eq_false_iff.mpr fun hdigit => ?_, Bool.eq_false_iff.mpr fun hquote => ?_,
    Bool.eq_false_iff.mpr fun hblank => ?_⟩
  · -- The ten digits are checked one by one.
    have hcode : c.toNat ∈ List.range' 48 10 := by
      simp only [Char.isDigit, Bool.and_eq_true, decide_eq_true_eq, ge_iff_le,
        UInt32.le_iff_toNat_le] at hdigit
      exact List.mem_range'_1.mpr ⟨hdigit.1, Nat.lt_succ_of_le hdigit.2⟩
    have hall : ∀ code ∈ List.range' 48 10, beginsName (Char.ofNat code) = false := by
      decide +kernel
    have := hall c.toNat hcode
    rw [Char.ofNat_toNat, h] at this
    cases this
  · simp only [Bool.or_eq_true, beq_iff_eq] at hquote
    rcases hquote with rfl | rfl
    · exact absurd h (by decide)
    · exact absurd h (by decide)
  · have hname := continuesName_of_isBlank hblank
    simp only [beginsName, continuesName, Text.isAlphanumeric, Bool.or_eq_true,
      Bool.or_eq_false_iff]
      at h hname
    rw [hname.1, hname.2.1] at h
    exact absurd h (by decide)

/-- The first character of a mark begins no other token. -/
theorem next_mark (m : Mark) (hrest : EndsToken rest) : ∃ c cs, m.text.toList = c :: cs ∧
    Text.isBlank c = false ∧ next c (cs ++ rest) = .ok (.mark m, rest) := by
  have hread := readMark_text m hrest
  obtain ⟨c, cs, htext, hc⟩ : ∃ c cs, m.text.toList = c :: cs ∧ c.isDigit = false ∧
      (c == '\'' || c == '"') = false ∧ beginsName c = false ∧ Text.isBlank c = false := by
    cases m <;> exact ⟨_, _, rfl, by decide, by decide, by decide, by decide⟩
  obtain ⟨hdigit, hquote, hname, hblank⟩ := hc
  refine ⟨c, cs, htext, hblank, ?_⟩
  rw [htext] at hread
  unfold next
  rw [hdigit, hquote, hname, ← List.cons_append, hread]
  rfl

/-- A token that is written out is read back in front of a blank, and is none itself. -/
theorem Writes.next (h : Writes t cs) (hrest : EndsToken rest) :
    ∃ c cs', cs = c :: cs' ∧ Text.isBlank c = false ∧ next c (cs' ++ rest) = .ok (t, rest) := by
  cases h with
  | @int n c cs hn hint =>
    refine ⟨c, cs, rfl, Text.isBlank_of_isDigit hint.first, ?_⟩
    rw [hint.next hrest.endsInteger, if_pos hn]
  | @str quote s hquote =>
    refine ⟨quote, _, rfl, ?_, ?_⟩
    · rcases hquote with rfl | rfl
      · decide
      · decide
    · unfold Expr.next
      rw [List.append_assoc, List.singleton_append, readQuoted_flatMap_quotedChar hquote,
        if_neg, if_pos]
      · dsimp only
        rw [String.ofList_toList]
      · simpa using hquote
      · rcases hquote with rfl | rfl
        · decide
        · decide
  | @name c cs hc hcs =>
    obtain ⟨hdigit, hquote, hblank⟩ := not_of_beginsName hc
    refine ⟨c, cs, rfl, hblank, next_name hdigit hquote hc hcs fun d hd => ?_⟩
    exact continuesName_of_isBlank (hrest d hd)
  | mark m => exact next_mark m hrest

/-! ## Reading tokens in a row -/

/-- The reader comes from the first characters to the last ones, over these tokens. -/
inductive Scans : List Char → List Token → List Char → Prop
  | here (cs : List Char) : Scans cs [] cs
  | blank {c : Char} {cs rest : List Char} {ts : List Token} : Text.isBlank c = true →
      Scans cs ts rest → Scans (c :: cs) ts rest
  | token {c : Char} {cs mid rest : List Char} {t : Token} {ts : List Token} :
      Text.isBlank c = false → next c cs = .ok (t, mid) → Scans mid ts rest →
      Scans (c :: cs) (t :: ts) rest

theorem tokens_nil : tokens [] = .ok [] := by
  rw [tokens]
  rfl

theorem tokens_blank (hc : Text.isBlank c = true) (cs : List Char) :
    tokens (c :: cs) = tokens cs := by
  rw [tokens, tokens, List.dropWhile_cons_of_pos hc]

/-- What cannot be read at the beginning is why the text cannot be read. -/
theorem tokens_error {fault : TokenFault} (hc : Text.isBlank c = false)
    (h : next c cs = .error fault) : tokens (c :: cs) = .error fault := by
  have hdrop : (c :: cs).dropWhile Text.isBlank = c :: cs :=
    List.dropWhile_cons_of_neg (by rw [hc]; exact Bool.false_ne_true)
  rw [tokens]
  split
  · next hnil => cases hdrop.symm.trans hnil
  · next d ds hds =>
    obtain ⟨rfl, rfl⟩ := List.cons.inj (hdrop.symm.trans hds)
    split
    · next fault' hfault =>
      cases h.symm.trans hfault
      rfl
    · next ht => cases h.symm.trans ht

/-- What stands at the end of a text is all that is left to read. -/
theorem Scans.tokens (h : Scans cs ts rest) : tokens cs = (tokens rest).map (ts ++ ·) := by
  induction h with
  | here cs =>
    cases Expr.tokens cs with
    | ok ts => rfl
    | error c => rfl
  | blank hc _ ih => rw [tokens_blank hc, ih]
  | token hc hnext _ ih =>
    rw [tokens_cons hc hnext, ih, Except.map_map]
    rfl

theorem Scans.append_blanks {gap : List Char} (hgap : ∀ c ∈ gap, Text.isBlank c = true)
    (h : Scans cs ts rest) : Scans (gap ++ cs) ts rest := by
  induction gap with
  | nil => exact h
  | cons c gap ih =>
    obtain ⟨hc, hgap⟩ := List.forall_mem_cons.mp hgap
    exact .blank hc (ih hgap)

/-- The reader comes over tokens that are written out to what stands behind them. -/
theorem Renders.scans (h : Renders ts cs) (hrest : ts ≠ [] → EndsToken rest) :
    Scans (cs ++ rest) ts rest := by
  induction h with
  | nil hgap => exact .append_blanks hgap (.here rest)
  | @cons gap cs behind t ts hgap hwrites hbehind _ ih =>
    have hends : EndsToken (behind ++ rest) := by
      cases behind with
      | nil => exact hrest (List.cons_ne_nil t ts)
      | cons c behind => exact hbehind
    obtain ⟨c, cs', rfl, hc, hnext⟩ := hwrites.next hends
    rw [List.append_assoc, List.append_assoc]
    exact .append_blanks hgap (.token hc hnext (ih fun _ => hrest (List.cons_ne_nil t ts)))

/-- Reading undoes writing. -/
theorem Renders.tokenize {text : String} (h : Renders ts text.toList) :
    tokenize text = .ok ts := by
  have hend : EndsToken [] := fun _ hc => nomatch hc
  have hscans := h.scans fun _ => hend
  rw [List.append_nil] at hscans
  rw [Expr.tokenize, hscans.tokens, tokens_nil]
  exact congrArg Except.ok (List.append_nil ts)

/-- An integer of more than 63 bits is refused, wherever the reader comes to it. -/
theorem Scans.tokenize_tooLarge {text : String} {n : Nat}
    (h : Scans text.toList ts (c :: cs ++ rest))
    (hint : WritesInt n c cs) (hn : 2 ^ 63 ≤ n) (hrest : EndsInteger rest) :
    tokenize text = .error (.badNumber (String.ofList (c :: cs.filter (· != '_')))) := by
  have hnext := hint.next hrest
  rw [if_neg (Nat.not_lt.mpr hn)] at hnext
  rw [Expr.tokenize, h.tokens, List.cons_append,
    tokens_error (Text.isBlank_of_isDigit hint.first) hnext]
  rfl

/-! ## Any tokens -/

/-- The tokens that can be written: integers of 63 bits, any strings, names and marks. -/
def Token.Writable : Token → Prop
  | .int n => 0 ≤ n ∧ n < 2 ^ 63
  | .float _ => False
  | .str _ | .mark _ => True
  | .name s => ∃ c cs, s.toList = c :: cs ∧ beginsName c = true ∧ ∀ d ∈ cs, continuesName d = true

theorem Token.writable_iff : t.Writable ↔ ∃ cs, Writes t cs := by
  constructor
  · intro h
    cases t with
    | int n =>
      obtain ⟨hlow, hhigh⟩ := h
      obtain ⟨m, rfl⟩ := Int.eq_ofNat_of_zero_le hlow
      obtain ⟨c, cs, -, hint⟩ := writesInt_toDigits m
      exact ⟨c :: cs, .int (by omega) hint⟩
    | float x => exact h.elim
    | str s => exact ⟨_, .str s (.inl rfl)⟩
    | name s =>
      obtain ⟨c, cs, hs, hc, hcs⟩ := h
      have := Writes.name hc hcs
      rw [← hs, String.ofList_toList] at this
      exact ⟨_, this⟩
    | mark m => exact ⟨_, .mark m⟩
  · rintro ⟨cs, h⟩
    cases h with
    | int hn hint => exact ⟨by omega, by omega⟩
    | str s hquote => trivial
    | @name c cs hc hcs => exact ⟨c, cs, String.toList_ofList, hc, hcs⟩
    | mark m => trivial

/-- Tokens that can be written one by one can be written in a row. -/
theorem exists_renders (h : ∀ t ∈ ts, t.Writable) :
    ∃ cs, Renders ts cs ∧ EndsToken cs := by
  induction ts with
  | nil => exact ⟨[], .nil fun _ hc => (nomatch hc), fun _ hc => (nomatch hc)⟩
  | cons t ts ih =>
    obtain ⟨ht, hts⟩ := List.forall_mem_cons.mp h
    obtain ⟨cs, hwrites⟩ := Token.writable_iff.mp ht
    obtain ⟨rest, hrest, hends⟩ := ih hts
    refine ⟨[' '] ++ cs ++ rest, .cons (List.forall_mem_singleton.mpr rfl) hwrites hends hrest, ?_⟩
    rintro c ⟨⟩
    decide

/-- The reader undoes writing: tokens that can be written are read back from every text that writes
them out, whatever digits are grouped, whatever quotes are used and whatever blanks are put between
them. But an integer of more than 63 bits is refused, wherever the reader comes to it. -/
theorem tokenize_undoes_rendering :
    (∀ ts : List Token, (∀ t ∈ ts, t.Writable) → ∃ text : String, Renders ts text.toList) ∧
    (∀ (ts : List Token) (text : String), Renders ts text.toList → tokenize text = .ok ts) ∧
    ∀ (text : String) (ts : List Token) (n : Nat) (c : Char) (cs rest : List Char),
      Scans text.toList ts (c :: cs ++ rest) → WritesInt n c cs → 2 ^ 63 ≤ n →
      EndsInteger rest →
      tokenize text = .error (.badNumber (String.ofList (c :: cs.filter (· != '_')))) := by
  refine ⟨fun ts h => ?_, fun ts text h => h.tokenize, ?_⟩
  · obtain ⟨cs, hcs, -⟩ := exists_renders h
    exact ⟨String.ofList cs, String.toList_ofList.symm ▸ hcs⟩
  · exact fun text ts n c cs rest h hint hn hrest => h.tokenize_tooLarge hint hn hrest

/-- Grouped digits, an escaped quote and a mark that is not cut in two; and the least integer that
is refused. -/
theorem tokenize_undoes_rendering_grouped :
    let ts : List Token := [.int 10, .str "it's", .mark .atMost]
    tokenize "1_0 'it\\'s'\t<=" = .ok ts ∧
      tokenize "x 9223372_036854775808" = .error (.badNumber "9223372036854775808") := by
  intro ts
  have htext : "1_0 'it\\'s'\t<=".toList =
      [] ++ ['1', '_', '0'] ++ ([' '] ++ ['\'', 'i', 't', '\\', '\'', 's', '\''] ++
        (['\t'] ++ ['<', '='] ++ [])) := rfl
  have hlarge : "x 9223372_036854775808".toList =
      'x' :: ' ' :: ('9' :: "223372_036854775808".toList ++ []) := rfl
  have hblank : ∀ c ∈ [' '], Text.isBlank c = true := List.forall_mem_singleton.mpr rfl
  have htab : ∀ c ∈ ['\t'], Text.isBlank c = true := List.forall_mem_singleton.mpr rfl
  have hend : EndsToken [] := fun _ hc => nomatch hc
  have hten : WritesInt 10 '1' ['_', '0'] := ⟨rfl, by simp, rfl⟩
  have hrenders : Renders ts "1_0 'it\\'s'\t<=".toList := by
    rw [htext]
    refine .cons (fun _ hc => nomatch hc) (.int (by decide) hten) (fun _ hc => ?_)
      (.cons hblank (.str "it's" (.inl rfl)) (fun _ hc => ?_)
        (.cons htab (.mark .atMost) hend (.nil fun _ hc => nomatch hc)))
    · cases hc
      rfl
    · cases hc
      rfl
  have hscans : Scans "x 9223372_036854775808".toList [.name "x"]
      ('9' :: "223372_036854775808".toList ++ []) := by
    rw [hlarge]
    exact .token rfl rfl (.blank rfl (.here _))
  exact ⟨tokenize_undoes_rendering.2.1 ts _ hrenders,
    tokenize_undoes_rendering.2.2 _ _ _ _ _ [] hscans ⟨rfl, by simp, rfl⟩ (Nat.le_refl _) trivial⟩

end Expr

end Stepwise
