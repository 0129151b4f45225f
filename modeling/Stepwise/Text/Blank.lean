/-!
# Blanks, trimming and lines

Blanks are the characters with the `White_Space` property of the Unicode standard, so the
no-break space and the line separators count and the zero-width space does not. Lines end with a
line feed, before which one carriage return is dropped.

* `toNat_toLower`: which letters small letters are.
* `behind?_eq_some_iff`: what is left of a text behind its head.
* `occursIn_append`: what was put between two texts is found there.
-/

namespace Stepwise.Text

/-- A character with the `White_Space` property. -/
def isBlank (c : Char) : Bool :=
  let code := c.toNat
  (9 ≤ code && code ≤ 13) || code == 0x20 || code == 0x85 || code == 0xA0 || code == 0x1680
    || (0x2000 ≤ code && code ≤ 0x200A) || code == 0x2028 || code == 0x2029 || code == 0x202F
    || code == 0x205F || code == 0x3000

/-- Space, tab, line feed, form feed and carriage return; the vertical tab is not one. -/
def isAsciiBlank (c : Char) : Bool :=
  c == ' ' || c == '\t' || c == '\n' || c == '\x0c' || c == '\r'

/-- The characters without those at the end that satisfy `p`. -/
def dropEndWhile (p : Char → Bool) (cs : List Char) : List Char :=
  (cs.reverse.dropWhile p).reverse

/-- The characters without the blanks at either end. -/
def trimChars (cs : List Char) : List Char := dropEndWhile isBlank (cs.dropWhile isBlank)

/-- The text without the blanks at either end. -/
def trim (text : String) : String := String.ofList (trimChars text.toList)

/-- Text that holds nothing but blanks. -/
def isAllBlank (text : String) : Bool := text.toList.all isBlank

/-- The text with its ASCII capitals made small. -/
def asciiLower (text : String) : String := String.ofList (text.toList.map Char.toLower)

/-- The text with its small ASCII letters made capital. -/
def asciiUpper (text : String) : String := String.ofList (text.toList.map Char.toUpper)

/-- The characters behind `head`, when they begin with it. -/
def behind? : List Char → List Char → Option (List Char)
  | [], cs => some cs
  | _ :: _, [] => none
  | h :: head, c :: cs => if h = c then behind? head cs else none

/-- `needle` stands somewhere in the characters. -/
def occursIn (needle : List Char) : List Char → Bool
  | [] => needle.isEmpty
  | c :: cs => needle.isPrefixOf (c :: cs) || occursIn needle cs

/-! ## Lines -/

/-- A line that ended with a line feed loses the carriage return before it. -/
def dropReturn (line : List Char) : List Char :=
  match line.reverse with
  | '\r' :: rest => rest.reverse
  | _ => line

/-- The lines of the characters; `line` holds what was read of the current one, backwards. -/
def linesFrom (line : List Char) : List Char → List (List Char)
  | [] => if line.isEmpty then [] else [line.reverse]
  | '\n' :: cs => dropReturn line.reverse :: linesFrom [] cs
  | c :: cs => linesFrom (c :: line) cs

/-- The lines of a text, without their ends. A last line may lack its end. -/
def lines (text : String) : List String := (linesFrom [] text.toList).map String.ofList

/-! ## Case -/

/-- Capitals stand 32 places before their small letters, and nothing else changes. -/
theorem toNat_toLower (c : Char) :
    c.toLower.toNat = if 65 ≤ c.toNat ∧ c.toNat ≤ 90 then c.toNat + 32 else c.toNat := by
  have hcapital : 'A'.val ≤ c.val ∧ c.val ≤ 'Z'.val ↔ 65 ≤ c.toNat ∧ c.toNat ≤ 90 :=
    and_congr UInt32.le_iff_toNat_le UInt32.le_iff_toNat_le
  unfold Char.toLower
  split
  · rename_i h
    have hc := hcapital.mp h
    have hhigh : c.val.toNat ≤ 90 := hc.2
    rw [if_pos hc]
    show (c.val + 32).toNat = c.val.toNat + 32
    rw [UInt32.toNat_add]
    exact Nat.mod_eq_of_lt (Nat.lt_of_le_of_lt (Nat.add_le_add_right hhigh 32) (by decide))
  · rename_i h
    rw [if_neg fun hc => h (hcapital.mpr hc)]

theorem asciiLower_asciiLower (text : String) :
    asciiLower (asciiLower text) = asciiLower text := by
  simp only [asciiLower, String.toList_ofList, List.map_map]
  refine congrArg String.ofList (List.map_congr_left fun c _ => Char.toNat_inj.mp ?_)
  show c.toLower.toLower.toNat = _
  by_cases h : 65 ≤ c.toNat ∧ c.toNat ≤ 90
  · rw [toNat_toLower, toNat_toLower, if_pos h, if_neg (by omega)]
  · rw [toNat_toLower, toNat_toLower, if_neg h, if_neg h]

/-! ## Finding -/

theorem behind?_eq_some_iff {head cs rest : List Char} :
    behind? head cs = some rest ↔ cs = head ++ rest := by
  fun_induction behind? head cs with
  | case1 => simp [eq_comm]
  | case2 => simp
  | case3 head h cs ih => simp [ih]
  | case4 h head c cs hne => simpa using fun e => absurd e.symm hne

theorem occursIn_append (needle before after : List Char) :
    occursIn needle (before ++ needle ++ after) = true := by
  induction before with
  | nil =>
    cases needle with
    | nil => cases after <;> simp [occursIn]
    | cons c cs =>
      show ((c :: cs).isPrefixOf (c :: (cs ++ after)) || occursIn (c :: cs) (cs ++ after)) = true
      have h : (c :: cs).isPrefixOf (c :: (cs ++ after)) = true :=
        List.isPrefixOf_iff_prefix.2 ⟨after, rfl⟩
      rw [h, Bool.true_or]
  | cons c cs ih =>
    rw [List.cons_append, List.cons_append, occursIn, ih, Bool.or_true]

end Stepwise.Text
