/-!
# Reading bytes as text

Bytes are read as UTF-8. Where they are not UTF-8, the longest run that could have begun a
character is replaced by one replacement character U+FFFD, and reading goes on behind it.

* `utf8EncodeChar_of_ascii`, `le_of_mem_utf8EncodeChar`: a character below 128 is its own byte, and
  no byte of another one is below 128.
-/

namespace Stepwise.Utf8

/-- What is known of a character after its first bytes: its bits so far, how many bytes are to
come, and between which bounds the next one lies. -/
structure Pending where
  bits : Nat
  left : Nat
  low : Nat := 0x80
  high : Nat := 0xBF

/-- The replacement character. -/
def replacement : Char := '\uFFFD'

/-- Reads a byte where a character begins: a whole character, a byte that begins none, or a
character to be continued. -/
def start (byte : Nat) : Char ⊕ Pending :=
  if byte < 0x80 then .inl (Char.ofNat byte)
  else if byte < 0xC2 then .inl replacement
  else if byte < 0xE0 then .inr ⟨byte - 0xC0, 1, 0x80, 0xBF⟩
  else if byte == 0xE0 then .inr ⟨0, 2, 0xA0, 0xBF⟩
  else if byte == 0xED then .inr ⟨0xD, 2, 0x80, 0x9F⟩
  else if byte < 0xF0 then .inr ⟨byte - 0xE0, 2, 0x80, 0xBF⟩
  else if byte == 0xF0 then .inr ⟨0, 3, 0x90, 0xBF⟩
  else if byte < 0xF4 then .inr ⟨byte - 0xF0, 3, 0x80, 0xBF⟩
  else if byte == 0xF4 then .inr ⟨4, 3, 0x80, 0x8F⟩
  else .inl replacement

/-- Reads on with a character pending. -/
def decodeFrom : Option Pending → List UInt8 → List Char
  | none, [] => []
  | some _, [] => [replacement]
  | none, b :: bs =>
    match start b.toNat with
    | .inl c => c :: decodeFrom none bs
    | .inr p => decodeFrom (some p) bs
  | some p, b :: bs =>
    if p.low ≤ b.toNat && b.toNat ≤ p.high then
      let bits := p.bits * 64 + (b.toNat - 0x80)
      if p.left ≤ 1 then Char.ofNat bits :: decodeFrom none bs
      else decodeFrom (some ⟨bits, p.left - 1, 0x80, 0xBF⟩) bs
    else
      replacement ::
        match start b.toNat with
        | .inl c => c :: decodeFrom none bs
        | .inr p => decodeFrom (some p) bs

/-- The text the bytes stand for. -/
def decode (bytes : List UInt8) : String := String.ofList (decodeFrom none bytes)

/-- The bytes of a text. -/
def encode (text : String) : List UInt8 := text.toList.flatMap String.utf8EncodeChar

/-! ## The bytes of a character -/

variable {c : Char}

theorem utf8EncodeChar_of_ascii (h : c.toNat < 128) : String.utf8EncodeChar c = [c.toUInt8] := by
  refine String.utf8EncodeChar_eq_singleton (Char.utf8Size_eq_one_iff.mpr ?_)
  exact UInt32.le_iff_toNat_le.mpr (Nat.le_of_lt_succ h)

/-- All bytes of a character beyond ASCII are beyond it too. -/
theorem le_of_mem_utf8EncodeChar (h : 128 ≤ c.toNat) :
    ∀ b ∈ String.utf8EncodeChar c, 128 ≤ b.toNat := by
  intro b hb
  have hval : 128 ≤ c.val.toNat := h
  unfold String.utf8EncodeChar at hb
  dsimp only at hb
  rw [if_neg (by omega)] at hb
  split at hb
  any_goals split at hb
  all_goals
    simp only [List.mem_cons, List.not_mem_nil, or_false] at hb
    rcases hb with rfl | rfl | rfl | rfl
    all_goals
      rw [UInt8.toNat_ofNat']
      omega

/-- Of the bytes of a character, only the first one may be an ASCII character. -/
theorem exists_utf8EncodeChar (c : Char) :
    ∃ b us, String.utf8EncodeChar c = b :: us ∧ ∀ b ∈ us, 128 ≤ b.toNat := by
  by_cases h : c.toNat < 128
  · exact ⟨c.toUInt8, [], utf8EncodeChar_of_ascii h, List.forall_mem_nil _⟩
  · have hwide := le_of_mem_utf8EncodeChar (Nat.not_lt.mp h)
    obtain ⟨b, us, hbytes⟩ := List.exists_cons_of_ne_nil (String.utf8EncodeChar_ne_nil (c := c))
    rw [hbytes] at hwide
    exact ⟨b, us, hbytes, (List.forall_mem_cons.mp hwide).2⟩

theorem toNat_toUInt8 (h : c.toNat < 128) : c.toUInt8.toNat = c.toNat := by
  rw [Char.toUInt8, UInt32.toNat_toUInt8]
  exact Nat.mod_eq_of_lt (by have : c.val.toNat < 128 := h; omega)

end Stepwise.Utf8
