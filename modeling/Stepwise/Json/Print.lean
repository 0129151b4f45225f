import Stepwise.Value
import Stepwise.Double.Written

/-!
# Writing values

The compact form of a value has no blanks; the wide form has one item or entry a line and two
blanks of indentation a level. In strings the quote, the backslash and the controls below U+0020
are escaped and everything else stands as it is.

* `writeOn_append`: the compact form is appended to what was written before.
* `compact`, `wide`: the two forms of a value.
-/

namespace Stepwise.Json

/-- A character as it stands in a string. -/
def escape (c : Char) : List Char :=
  match c with
  | '"' => ['\\', '"']
  | '\\' => ['\\', '\\']
  | '\x08' => ['\\', 'b']
  | '\t' => ['\\', 't']
  | '\n' => ['\\', 'n']
  | '\x0c' => ['\\', 'f']
  | '\r' => ['\\', 'r']
  | c =>
    if c.toNat < 32 then
      ['\\', 'u', '0', '0', Nat.digitChar (c.toNat / 16), Nat.digitChar (c.toNat % 16)]
    else [c]

/-- A string between its quotes. -/
def string (s : String) : String :=
  String.ofList ('"' :: (s.toList.flatMap escape ++ ['"']))

mutual

/-- Appends the compact form of a value. -/
def writeOn (out : String) : Value → String
  | .null => out ++ "null"
  | .bool b => out ++ (if b then "true" else "false")
  | .int n => out ++ toString n
  | .float x => out ++ Double.write .data x
  | .str s => out ++ string s
  | .list items => writeItems (out ++ "[") true items ++ "]"
  | .dict entries => writeEntries (out ++ "\x7b") true entries ++ "\x7d"

/-- Appends items, separated by commas. -/
def writeItems (out : String) (first : Bool) : List Value → String
  | [] => out
  | v :: vs => writeItems (writeOn (if first then out else out ++ ",") v) false vs

/-- Appends entries, separated by commas. -/
def writeEntries (out : String) (first : Bool) : List (String × Value) → String
  | [] => out
  | (name, v) :: rest =>
    writeEntries (writeOn ((if first then out else out ++ ",") ++ string name ++ ":") v) false rest

end

/-- The compact form of a value. -/
def compact (v : Value) : String := writeOn "" v

mutual

theorem writeOn_append (a b : String) : ∀ v, writeOn (a ++ b) v = a ++ writeOn b v
  | .null | .bool _ | .int _ | .float _ | .str _ => by simp [writeOn, String.append_assoc]
  | .list items => by
    simp only [writeOn, String.append_assoc]
    rw [writeItems_append, String.append_assoc]
  | .dict entries => by
    simp only [writeOn, String.append_assoc]
    rw [writeEntries_append, String.append_assoc]

theorem writeItems_append (a b : String) (first : Bool) :
    ∀ vs, writeItems (a ++ b) first vs = a ++ writeItems b first vs
  | [] => rfl
  | v :: vs => by
    cases first <;>
      simp only [writeItems, Bool.false_eq_true, ↓reduceIte, String.append_assoc] <;>
      rw [writeOn_append, writeItems_append]

theorem writeEntries_append (a b : String) (first : Bool) :
    ∀ es, writeEntries (a ++ b) first es = a ++ writeEntries b first es
  | [] => rfl
  | (name, v) :: rest => by
    cases first <;>
      simp only [writeEntries, Bool.false_eq_true, ↓reduceIte, String.append_assoc] <;>
      rw [writeOn_append, writeEntries_append]

end

/-! ## The wide form -/

/-- A line break and the blanks of a level. -/
def newline (level : Nat) : String := String.ofList ('\n' :: List.replicate (2 * level) ' ')

mutual

/-- Appends the wide form of a value at a level. -/
def wideOn (level : Nat) (out : String) : Value → String
  | .list [] => out ++ "[]"
  | .dict [] => out ++ "\x7b\x7d"
  | .list items => wideItems (level + 1) (out ++ "[") true items ++ newline level ++ "]"
  | .dict entries => wideEntries (level + 1) (out ++ "\x7b") true entries ++ newline level ++ "\x7d"
  | v => writeOn out v

/-- Appends items, each on its own line. -/
def wideItems (level : Nat) (out : String) (first : Bool) : List Value → String
  | [] => out
  | v :: vs =>
    wideItems level (wideOn level ((if first then out else out ++ ",") ++ newline level) v) false vs

/-- Appends entries, each on its own line. -/
def wideEntries (level : Nat) (out : String) (first : Bool) : List (String × Value) → String
  | [] => out
  | (name, v) :: rest =>
    let out := (if first then out else out ++ ",") ++ newline level ++ string name ++ ": "
    wideEntries level (wideOn level out v) false rest

end

/-- The wide form of a value. -/
def wide (v : Value) : String := wideOn 0 "" v

end Stepwise.Json

namespace Stepwise.Value

/-- The text a value is shown as: strings verbatim, everything else in its compact form. -/
def display : Value → String
  | .str s => s
  | v => Json.compact v

end Stepwise.Value
