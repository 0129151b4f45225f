import Mathlib.Data.List.Forall2
import Stepwise.Proofs.Reader
import Stepwise.Text.Utf8

/-!
# Cutting the bytes of a line

A line can be cut without reading its characters. All that matters to the cut are ASCII characters,
which are one byte each, and no byte of another character is below 128. So it may look at bytes, and
pass over two of them behind a backslash even where this leaves it within a character: nothing it
finds there means anything to it, and it never stops there.

* `spans`: the cut, as places in the bytes.
* `skipBlanks_eq`, `tokenEnd_eq`: it passes over the bytes of those characters that the cut of the
  characters passes over.
* `cutsOut_spansFrom`: so it finds the same tokens, and never divides a character.
* `splitting_agrees`: the tokens, the one reader, and the places.
-/

namespace Stepwise.Command

open Text Utf8

/-! ## Bytes -/

/-- Space, tab, line feed, form feed and carriage return, as bytes. -/
def isBlankByte (b : UInt8) : Bool :=
  b == ' '.toUInt8 || b == '\t'.toUInt8 || b == '\n'.toUInt8 || b == '\x0c'.toUInt8 ||
    b == '\r'.toUInt8

/-- The place of the first byte from `i` on that is no blank. -/
def skipBlanks (bytes : List UInt8) (i : Nat) : Nat :=
  match h : bytes[i]? with
  | some b => if isBlankByte b then skipBlanks bytes (i + 1) else i
  | none => i
termination_by bytes.length - i
decreasing_by
  have := (List.getElem?_eq_some_iff.mp h).1
  omega

/-- The place where a token ends that has come to byte `i` with the quotes `q` open. -/
def tokenEnd (bytes : List UInt8) (q : Quoting) (i : Nat) : Nat :=
  match h : bytes[i]? with
  | some b =>
    if b == '\\'.toUInt8 && !q.single && decide (i + 1 < bytes.length) then
      tokenEnd bytes q (i + 2)
    else if b == '\''.toUInt8 && !q.double then
      tokenEnd bytes { q with single := !q.single } (i + 1)
    else if b == '"'.toUInt8 && !q.single then
      tokenEnd bytes { q with double := !q.double } (i + 1)
    else if !q.single && !q.double && isBlankByte b then i
    else tokenEnd bytes q (i + 1)
  | none => i
termination_by bytes.length - i
decreasing_by
  all_goals
    have := (List.getElem?_eq_some_iff.mp h).1
    omega

theorem le_skipBlanks (bytes : List UInt8) (i : Nat) : i ≤ skipBlanks bytes i := by
  fun_induction skipBlanks bytes i <;> omega

theorem le_tokenEnd (bytes : List UInt8) (q : Quoting) (i : Nat) : i ≤ tokenEnd bytes q i := by
  fun_induction tokenEnd bytes q i <;> omega

/-- No blank stands where blanks have been passed over. -/
theorem skipBlanks_stops {bytes : List UInt8} {i : Nat} {b : UInt8}
    (h : bytes[skipBlanks bytes i]? = some b) : isBlankByte b = false := by
  fun_induction skipBlanks bytes i with
  | case1 i b' hb' hblank ih => exact ih h
  | case2 i b' hb' hblank =>
    cases hb'.symm.trans h
    exact Bool.eq_false_iff.mpr hblank
  | case3 i hnone => cases hnone.symm.trans h

theorem lt_tokenEnd {bytes : List UInt8} {i : Nat} {b : UInt8} (h : bytes[i]? = some b)
    (hb : isBlankByte b = false) : i < tokenEnd bytes {} i := by
  have hle := le_tokenEnd bytes
  rw [tokenEnd]
  split
  · next b' hb' =>
    cases h.symm.trans hb'
    simp only [hb, Bool.and_false, Bool.false_eq_true, if_false]
    split_ifs
    · exact Nat.lt_of_lt_of_le (Nat.lt_add_of_pos_right Nat.two_pos) (hle _ (i + 2))
    · exact hle _ (i + 1)
    · exact hle _ (i + 1)
    · exact hle _ (i + 1)
  · next hnone => cases hnone.symm.trans h

/-- The places of the tokens from byte `i` on: where each begins and where it ends. -/
def spansFrom (bytes : List UInt8) (i : Nat) : List (Nat × Nat) :=
  if _h : skipBlanks bytes i < bytes.length then
    let stop := tokenEnd bytes {} (skipBlanks bytes i)
    (skipBlanks bytes i, stop) :: spansFrom bytes stop
  else []
termination_by bytes.length - i
decreasing_by
  have hstart := le_skipBlanks bytes i
  have hbyte := List.getElem?_eq_getElem _h
  have hstop := lt_tokenEnd hbyte (skipBlanks_stops hbyte)
  omega

/-- The places of the tokens in the bytes of a line. -/
def spans (line : String) : List (Nat × Nat) := spansFrom (Utf8.encode line) 0

/-! ## Characters as bytes -/

/-- The bytes of characters. -/
def bytesOf (cs : List Char) : List UInt8 := cs.flatMap String.utf8EncodeChar

theorem bytesOf_cons (c : Char) (cs : List Char) :
    bytesOf (c :: cs) = String.utf8EncodeChar c ++ bytesOf cs :=
  List.flatMap_cons

theorem bytesOf_append (cs ds : List Char) : bytesOf (cs ++ ds) = bytesOf cs ++ bytesOf ds :=
  List.flatMap_append

variable {c d : Char}

theorem toUInt8_beq (hc : c.toNat < 128) (hd : d.toNat < 128) :
    (c.toUInt8 == d.toUInt8) = (c == d) := by
  rw [Bool.eq_iff_iff, beq_iff_eq, beq_iff_eq, ← UInt8.toNat_inj, toNat_toUInt8 hc,
    toNat_toUInt8 hd, Char.toNat_inj]

theorem isBlankByte_toUInt8 (hc : c.toNat < 128) : isBlankByte c.toUInt8 = isAsciiBlank c := by
  simp (disch := decide) only [isBlankByte, isAsciiBlank, toUInt8_beq hc]

/-- A byte beyond ASCII is none of the characters that matter. -/
theorem beq_toUInt8_of_wide {b : UInt8} (hb : 128 ≤ b.toNat) (hd : d.toNat < 128) :
    (b == d.toUInt8) = false := by
  refine beq_eq_false_iff_ne.mpr ?_
  rintro rfl
  rw [toNat_toUInt8 hd] at hb
  omega

theorem isBlankByte_of_wide {b : UInt8} (hb : 128 ≤ b.toNat) : isBlankByte b = false := by
  simp (disch := decide) only [isBlankByte, beq_toUInt8_of_wide hb, Bool.or_self]

theorem lt_of_isAsciiBlank (h : isAsciiBlank c = true) : c.toNat < 128 := by
  simp only [isAsciiBlank, Bool.or_eq_true, beq_iff_eq] at h
  rcases h with (((rfl | rfl) | rfl) | rfl) | rfl
  all_goals decide

/-! ## To the end of a token -/

section

variable {bytes tail : List UInt8} {q : Quoting} {b : UInt8} {i : Nat}

theorem getElem?_of_drop_nil (h : bytes.drop i = []) : bytes[i]? = none := by
  rw [← List.head?_drop, h]
  rfl

theorem getElem?_of_drop (h : bytes.drop i = b :: tail) : bytes[i]? = some b := by
  rw [← List.head?_drop, h]
  rfl

theorem drop_of_drop {us : List UInt8} (h : bytes.drop i = us ++ tail) :
    bytes.drop (i + us.length) = tail := by
  rw [← List.drop_drop, h, List.drop_left]

theorem lt_length_iff (h : bytes.drop i = b :: tail) : i + 1 < bytes.length ↔ tail ≠ [] := by
  have hlength := congrArg List.length h
  rw [List.length_drop, List.length_cons] at hlength
  rw [← List.length_pos_iff]
  omega

theorem tokenEnd_nil (h : bytes.drop i = []) (q : Quoting) : tokenEnd bytes q i = i := by
  rw [tokenEnd]
  split
  · next hb => cases (getElem?_of_drop_nil h).symm.trans hb
  · rfl

theorem tokenEnd_cons (h : bytes.drop i = b :: tail) (q : Quoting) :
    tokenEnd bytes q i =
      if b == '\\'.toUInt8 && !q.single && !tail.isEmpty then tokenEnd bytes q (i + 2)
      else if b == '\''.toUInt8 && !q.double then
        tokenEnd bytes { q with single := !q.single } (i + 1)
      else if b == '"'.toUInt8 && !q.single then
        tokenEnd bytes { q with double := !q.double } (i + 1)
      else if !q.single && !q.double && isBlankByte b then i
      else tokenEnd bytes q (i + 1) := by
  have hmore : decide (i + 1 < bytes.length) = !tail.isEmpty := by
    rw [Bool.eq_iff_iff, decide_eq_true_eq, lt_length_iff h, Bool.not_eq_true',
      List.isEmpty_eq_false_iff]
  rw [tokenEnd]
  split
  · next b' hb' =>
    cases (getElem?_of_drop h).symm.trans hb'
    rw [hmore]
  · next hnone => cases hnone.symm.trans (getElem?_of_drop h)

/-- A byte beyond ASCII is passed over. -/
theorem tokenEnd_wide {us : List UInt8} (hus : ∀ b ∈ us, 128 ≤ b.toNat)
    (h : bytes.drop i = us ++ tail) (q : Quoting) :
    tokenEnd bytes q i = tokenEnd bytes q (i + us.length) := by
  induction us generalizing i with
  | nil => rfl
  | cons b us ih =>
    obtain ⟨hb, hus⟩ := List.forall_mem_cons.mp hus
    have hrest : bytes.drop (i + [b].length) = us ++ tail := drop_of_drop h
    have hlength : i + (b :: us).length = i + [b].length + us.length := by
      rw [List.length_cons, List.length_singleton]
      omega
    rw [hlength, ← ih hus hrest, tokenEnd_cons h, isBlankByte_of_wide hb]
    simp (disch := decide) only [beq_toUInt8_of_wide hb, Bool.false_and, Bool.and_false,
      Bool.false_eq_true, if_false, List.length_singleton]

theorem isEmpty_bytesOf (cs : List Char) : (bytesOf cs).isEmpty = cs.isEmpty := by
  cases cs with
  | nil => rfl
  | cons c cs =>
    obtain ⟨b, us, hbytes, _⟩ := exists_utf8EncodeChar c
    rw [bytesOf_cons, hbytes]
    rfl

/-- A character that does not escape the one behind it is looked at on its own. -/
theorem tokenEnd_char {cs : List Char} (hback : (c == '\\' && !q.single && !cs.isEmpty) = false)
    (h : bytes.drop i = bytesOf (c :: cs)) :
    tokenEnd bytes q i =
      if !q.single && !q.double && isAsciiBlank c then i
      else tokenEnd bytes (q.after c) (i + (String.utf8EncodeChar c).length) := by
  rw [bytesOf_cons] at h
  by_cases hc : c.toNat < 128
  · rw [utf8EncodeChar_of_ascii hc, List.singleton_append] at h
    rw [utf8EncodeChar_of_ascii hc, List.length_singleton, tokenEnd_cons h, isEmpty_bytesOf,
      isBlankByte_toUInt8 hc]
    simp (disch := decide) only [toUInt8_beq hc, hback]
    cases hblank : isAsciiBlank c with
    | true =>
      -- A blank is no quote, whatever is asked first.
      have hsingle : c ≠ '\'' := ne_of_isAsciiBlank hblank rfl
      have hdouble : c ≠ '"' := ne_of_isAsciiBlank hblank rfl
      simp [Quoting.after, hsingle, hdouble]
    | false =>
      simp only [Bool.and_false, Bool.false_eq_true, if_false, Quoting.after]
      split_ifs <;> rfl
  · -- No byte of a longer character is one of those that are looked for.
    have hne {d : Char} (hd : d.toNat < 128) : (c == d) = false := by
      refine beq_eq_false_iff_ne.mpr ?_
      rintro rfl
      exact hc hd
    have hblank : isAsciiBlank c = false :=
      Bool.eq_false_iff.mpr fun hblank => hc (lt_of_isAsciiBlank hblank)
    rw [tokenEnd_wide (le_of_mem_utf8EncodeChar (Nat.not_lt.mp hc)) h, Quoting.after,
      hne (by decide), hne (by decide), hblank]
    simp only [Bool.false_and, Bool.and_false, Bool.false_eq_true, if_false]

/-- Behind a backslash two bytes are passed over, and then what is left of the character. -/
theorem tokenEnd_backslash (hq : q.single = false)
    (h : bytes.drop i = bytesOf ['\\', d] ++ tail) :
    tokenEnd bytes q i = tokenEnd bytes q (i + (bytesOf ['\\', d]).length) := by
  obtain ⟨b, us, hd, hus⟩ := exists_utf8EncodeChar d
  have hbytes : bytesOf ['\\', d] = ['\\'.toUInt8, b] ++ us := by
    rw [bytesOf, List.flatMap_cons, List.flatMap_singleton, hd]
    rfl
  rw [hbytes, List.append_assoc] at h
  have hrest : bytes.drop (i + ['\\'.toUInt8, b].length) = us ++ tail := drop_of_drop h
  rw [hbytes, List.length_append, ← Nat.add_assoc, ← tokenEnd_wide hus hrest, tokenEnd_cons h, hq]
  rfl

/-- The cut of the bytes ends a token where the cut of the characters does. -/
theorem tokenEnd_eq {q : Quoting} {cs : List Char} {i : Nat} (h : bytes.drop i = bytesOf cs) :
    tokenEnd bytes q i = i + (bytesOf (tokenFrom q cs).1).length := by
  match cs with
  | [] => exact tokenEnd_nil h q
  | c :: cs =>
    cases hback : c == '\\' && !q.single && !cs.isEmpty with
    | false =>
      rw [tokenFrom_cons hback, tokenEnd_char hback h]
      split
      · rfl
      · rw [bytesOf_cons] at h
        rw [tokenEnd_eq (drop_of_drop h), bytesOf_cons, List.length_append, Nat.add_assoc]
    | true =>
      simp only [Bool.and_eq_true, beq_iff_eq, Bool.not_eq_true', List.isEmpty_eq_false_iff]
        at hback
      obtain ⟨⟨rfl, hsingle⟩, hcs⟩ := hback
      obtain ⟨d, cs, rfl⟩ := List.exists_cons_of_ne_nil hcs
      -- The backslash and the character behind it go into the token together.
      have hbytes (token : List Char) :
          bytesOf ('\\' :: d :: token) = bytesOf ['\\', d] ++ bytesOf token :=
        bytesOf_append ['\\', d] token
      rw [hbytes] at h
      rw [tokenFrom_backslash hsingle, tokenEnd_backslash hsingle h, tokenEnd_eq (drop_of_drop h),
        hbytes (tokenFrom q cs).1, List.length_append, Nat.add_assoc]
termination_by cs.length

/-! ## Over the blanks -/

theorem skipBlanks_nil (h : bytes.drop i = []) : skipBlanks bytes i = i := by
  rw [skipBlanks]
  split
  · next hb => cases (getElem?_of_drop_nil h).symm.trans hb
  · rfl

theorem skipBlanks_cons (h : bytes.drop i = b :: tail) :
    skipBlanks bytes i = if isBlankByte b then skipBlanks bytes (i + 1) else i := by
  rw [skipBlanks]
  split
  · next b' hb' =>
    cases (getElem?_of_drop h).symm.trans hb'
    rfl
  · next hnone => cases hnone.symm.trans (getElem?_of_drop h)

theorem isBlankByte_of_not_blank {us : List UInt8} (hc : isAsciiBlank c = false)
    (hbytes : String.utf8EncodeChar c = b :: us) : isBlankByte b = false := by
  by_cases hascii : c.toNat < 128
  · rw [utf8EncodeChar_of_ascii hascii] at hbytes
    cases hbytes
    rw [isBlankByte_toUInt8 hascii, hc]
  · refine isBlankByte_of_wide (le_of_mem_utf8EncodeChar (Nat.not_lt.mp hascii) b ?_)
    rw [hbytes]
    exact List.mem_cons_self

/-- The cut of the bytes passes over the blanks that the cut of the characters passes over. -/
theorem skipBlanks_eq {cs : List Char} (h : bytes.drop i = bytesOf cs) :
    skipBlanks bytes i = i + (bytesOf (cs.takeWhile isAsciiBlank)).length := by
  induction cs generalizing i with
  | nil => exact skipBlanks_nil h
  | cons c cs ih =>
    rw [bytesOf_cons] at h
    cases hc : isAsciiBlank c with
    | true =>
      rw [List.takeWhile_cons_of_pos hc, bytesOf_cons, List.length_append, ← Nat.add_assoc,
        ← ih (drop_of_drop h)]
      rw [utf8EncodeChar_of_ascii (lt_of_isAsciiBlank hc), List.singleton_append] at h
      rw [skipBlanks_cons h, isBlankByte_toUInt8 (lt_of_isAsciiBlank hc), if_pos hc,
        utf8EncodeChar_of_ascii (lt_of_isAsciiBlank hc), List.length_singleton]
    | false =>
      obtain ⟨b, us, hbytes, _⟩ := exists_utf8EncodeChar c
      rw [hbytes, List.cons_append] at h
      rw [skipBlanks_cons h, isBlankByte_of_not_blank hc hbytes,
        List.takeWhile_cons_of_neg (by rw [hc]; exact Bool.false_ne_true)]
      rfl

end

/-! ## The places of the tokens -/

/-- The line has these characters between two places at which a character begins or the line
ends. -/
def CutsOut (line : String) (span : Nat × Nat) (cs : List Char) : Prop :=
  ∃ first last : line.Pos, (first.offset.byteIdx, last.offset.byteIdx) = span ∧
    line.extract first last = String.ofList cs

theorem utf8ByteSize_ofList (cs : List Char) :
    (String.ofList cs).utf8ByteSize = (bytesOf cs).length := by
  rw [← String.size_toByteArray, String.toByteArray_ofList]
  exact List.size_toByteArray

/-- What stands behind some characters of the line stands behind their bytes. -/
theorem cutsOut {line : String} {before token after : List Char}
    (h : line.toList = before ++ token ++ after) :
    CutsOut line ((bytesOf before).length, (bytesOf (before ++ token)).length) token := by
  have hline : line = String.ofList before ++ String.ofList token ++ String.ofList after := by
    rw [← String.ofList_append, ← String.ofList_append, ← h, String.ofList_toList]
  subst hline
  have hfirst := String.Pos.Raw.isValid_iff_exists_append.mpr
    ⟨String.ofList before, String.ofList token ++ String.ofList after, String.append_assoc .., rfl⟩
  have hlast := String.Pos.Raw.isValid_iff_exists_append.mpr
    ⟨String.ofList before ++ String.ofList token, String.ofList after, rfl, rfl⟩
  refine ⟨⟨_, hfirst⟩, ⟨_, hlast⟩, ?_, ?_⟩
  · rw [String.byteIdx_rawEndPos, String.byteIdx_rawEndPos, ← String.ofList_append,
      utf8ByteSize_ofList, utf8ByteSize_ofList]
  · rw [← String.toByteArray_inj, String.toByteArray_extract, String.byteIdx_rawEndPos,
      String.byteIdx_rawEndPos, ← String.size_toByteArray, ← String.size_toByteArray,
      String.toByteArray_append, ByteArray.extract_append_size_left, String.toByteArray_append]
    exact ByteArray.extract_append_eq_right rfl ByteArray.size_append

theorem append_tokenFrom (q : Quoting) (cs : List Char) :
    (tokenFrom q cs).1 ++ (tokenFrom q cs).2 = cs := by
  fun_induction tokenFrom q cs <;> simp_all

section

variable {line : String} {before cs : List Char}

theorem drop_bytesOf (h : line.toList = before ++ cs) :
    (bytesOf line.toList).drop (bytesOf before).length = bytesOf cs := by
  rw [h, bytesOf_append, List.drop_left]

theorem skipBlanks_bytesOf (h : line.toList = before ++ cs) :
    skipBlanks (bytesOf line.toList) (bytesOf before).length =
      (bytesOf (before ++ cs.takeWhile isAsciiBlank)).length := by
  rw [skipBlanks_eq (drop_bytesOf h), bytesOf_append, List.length_append]

theorem tokenEnd_bytesOf (h : line.toList = before ++ cs) :
    tokenEnd (bytesOf line.toList) {} (bytesOf before).length =
      (bytesOf (before ++ (tokenFrom {} cs).1)).length := by
  rw [tokenEnd_eq (drop_bytesOf h), bytesOf_append, List.length_append]

/-- The cut of the bytes finds the tokens of the characters, one after the other. -/
theorem cutsOut_spansFrom (h : line.toList = before ++ cs) :
    List.Forall₂ (CutsOut line) (spansFrom (bytesOf line.toList) (bytesOf before).length)
      (tokens cs) := by
  fun_induction tokens cs generalizing before with
  -- Nothing but blanks is left.
  | case1 cs hnil =>
    have hblanks : cs.takeWhile isAsciiBlank = cs := by
      rw [← List.append_nil (cs.takeWhile isAsciiBlank), ← hnil, List.takeWhile_append_dropWhile]
    have hend := skipBlanks_bytesOf h
    rw [hblanks, ← h] at hend
    rw [spansFrom, dif_neg (Nat.not_lt.mpr hend.ge)]
    exact .nil
  | case2 cs c cs' hcons ih =>
    -- The blanks, the token and what is behind it make up the line: all cuts are at characters.
    have hskip := skipBlanks_bytesOf h
    have hstart : line.toList = before ++ cs.takeWhile isAsciiBlank ++ c :: cs' := by
      rw [List.append_assoc, ← hcons, List.takeWhile_append_dropWhile, h]
    have hstop := tokenEnd_bytesOf hstart
    have hrest : line.toList = before ++ cs.takeWhile isAsciiBlank ++
        (tokenFrom {} (c :: cs')).1 ++ (tokenFrom {} (c :: cs')).2 := by
      rw [List.append_assoc _ (tokenFrom {} (c :: cs')).1, append_tokenFrom, ← hstart]
    have hlt : skipBlanks (bytesOf line.toList) (bytesOf before).length <
        (bytesOf line.toList).length := by
      obtain ⟨b, us, hbytes, _⟩ := exists_utf8EncodeChar c
      have hdrop := drop_bytesOf hstart
      rw [bytesOf_cons, hbytes] at hdrop
      rw [hskip]
      exact (List.getElem?_eq_some_iff.mp (getElem?_of_drop hdrop)).1
    rw [spansFrom, dif_pos hlt, hskip, hstop]
    exact .cons (cutsOut hrest) (ih hrest)

end

/-- Cutting a line into tokens and unquoting each of them is reading it in one go: the arguments are
the same, and there are none if and only if the reader ends inside quotes. No token but the last one
leaves a quote open, and the cut of the bytes makes the tokens between the starts of characters. -/
theorem splitting_agrees (line : String) :
    split? line = (Reader.read {} line.toList).arguments? ∧
      (split? line = none ↔ (Reader.read {} line.toList).region ≠ .outside) ∧
      (∀ token ∈ (tokens line.toList).dropLast, (unquoteFrom none token).isSome = true) ∧
      List.Forall₂ (CutsOut line) (spans line) (tokens line.toList) := by
  obtain ⟨parts, hparts⟩ := exists_cut line.toList
  have harguments := split?_eq_arguments? line
  have hplaces : List.Forall₂ (CutsOut line)
      (spansFrom (bytesOf line.toList) (bytesOf []).length) (tokens line.toList) :=
    cutsOut_spansFrom rfl
  refine ⟨harguments, ?_, ?_, hplaces⟩
  · rw [harguments, Reader.arguments?]
    split <;> simp_all
  · intro token htoken
    rw [hparts.tokens_eq, ← List.map_dropLast] at htoken
    obtain ⟨part, hpart, rfl⟩ := List.mem_map.mp htoken
    rw [hparts.unquoteFrom_eq part ((List.dropLast_sublist parts).subset hpart),
      if_pos (hparts.outside_of_dropLast part hpart)]
    rfl

example : spans "a\\é 'b c'" = [(0, 4), (5, 10)] := by cbv

example : split? "a\\é 'b c' \"\\d\"" = some ["aé", "b c", "\\d"] := by cbv

end Stepwise.Command
