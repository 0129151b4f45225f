import Stepwise.Text.Visible

/-!
# Quoted text

Diagnostics show text between double quotes. The quote, the backslash and the usual controls have
short escapes, every other character that does not show as itself is written by its code point in
hexadecimal, and a single quote stands as it is.

* `quoted`: a text as diagnostics show it.
-/

namespace Stepwise.Text

/-- A number in lower-case hexadecimal, without leading zeros. -/
def hex (n : Nat) : List Char := Nat.toDigits 16 n

/-- A character as it stands between double quotes. -/
def quoteChar (c : Char) : List Char :=
  match c with
  | '\x00' => ['\\', '0']
  | '\t' => ['\\', 't']
  | '\n' => ['\\', 'n']
  | '\r' => ['\\', 'r']
  | '"' => ['\\', '"']
  | '\\' => ['\\', '\\']
  | c => if isVisible c then [c] else ['\\', 'u', '\x7b'] ++ hex c.toNat ++ ['\x7d']

/-- The characters between the quotes. -/
def quoteChars (cs : List Char) : List Char := cs.flatMap quoteChar

/-- The text between double quotes, escaped. -/
def quoted (text : String) : String :=
  String.ofList ('"' :: (quoteChars text.toList ++ ['"']))

end Stepwise.Text
