import Stepwise.Text.Utf8

/-!
# Percent encoding

Bytes that may not stand in a part of a URL are written as a percent sign and two hexadecimal
digits. Which ones those are depends on the part.

* `encode`: the characters of a text, encoded where they may not stand as they are.
* `decode`: the bytes behind a text with percent signs.
-/

namespace Stepwise.Url.Percent

/-- A hexadecimal digit in capitals. -/
def hexDigit (n : Nat) : Char := (Nat.digitChar n).toUpper

/-- A byte in two capital hexadecimal digits behind a percent sign. -/
def byte (b : UInt8) : List Char := ['%', hexDigit (b.toNat / 16), hexDigit (b.toNat % 16)]

/-- The characters with those encoded that are neither in ASCII nor may stand. -/
def encode (mayStand : Char → Bool) (cs : List Char) : List Char :=
  cs.flatMap fun c =>
    if c.toNat < 128 && mayStand c then [c] else (String.utf8EncodeChar c).flatMap byte

/-- A character that is no control character. -/
def plain (c : Char) : Bool := 32 ≤ c.toNat && c.toNat < 127

/-- What may stand in a fragment. -/
def fragment (c : Char) : Bool :=
  plain c && c != ' ' && c != '"' && c != '<' && c != '>' && c != '`'

/-- What may stand in a query. -/
def query (c : Char) : Bool := plain c && c != ' ' && c != '"' && c != '#' && c != '<' && c != '>'

/-- What may stand in the query of a special URL. -/
def specialQuery (c : Char) : Bool := query c && c != '\''

/-- What may stand in a path. -/
def path (c : Char) : Bool :=
  fragment c && c != '#' && c != '?' && c != '\x7b' && c != '\x7d'

/-- What may stand in the name and the password of a user. -/
def userinfo (c : Char) : Bool :=
  path c && c != '/' && c != ':' && c != ';' && c != '=' && c != '@' && c != '[' && c != '\\'
    && c != ']' && c != '^' && c != '|'

/-- The value of a hexadecimal digit. -/
def hexValue? (c : Char) : Option Nat :=
  if c.isDigit then some (c.toNat - '0'.toNat)
  else if 'a' ≤ c && c ≤ 'f' then some (c.toNat - 'a'.toNat + 10)
  else if 'A' ≤ c && c ≤ 'F' then some (c.toNat - 'A'.toNat + 10)
  else none

/-- The bytes of the characters, with percent signs and the digits behind them decoded. -/
def decode : List Char → List UInt8
  | '%' :: a :: b :: cs =>
    match hexValue? a, hexValue? b with
    | some high, some low => UInt8.ofNat (16 * high + low) :: decode cs
    | _, _ => UInt8.ofNat '%'.toNat :: decode (a :: b :: cs)
  | c :: cs => String.utf8EncodeChar c ++ decode cs
  | [] => []

end Stepwise.Url.Percent
