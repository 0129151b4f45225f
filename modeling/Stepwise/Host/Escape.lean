import Stepwise.Text.Utf8

/-!
# Escapes

Texts that programs write may hold escapes: a backslash and a letter for a control character, or a
backslash and up to three octal digits for a byte. Programs besides the shell also take two
hexadecimal digits behind an `x` for a byte, and write the number of a character behind a `u` as it
stands. `\c` ends the text. A backslash before anything else stands for itself.

* `Escape.decode`: the bytes a text with escapes stands for.
-/

namespace Stepwise.Host.Escape

/-- The byte a letter behind a backslash stands for. -/
def letter? : Char → Option UInt8
  | 'a' => some 7
  | 'b' => some 8
  | 'e' => some 27
  | 'f' => some 12
  | 'n' => some 10
  | 'r' => some 13
  | 't' => some 9
  | 'v' => some 11
  | '\\' => some 92
  | _ => none

/-- An octal digit. -/
def isOctal (c : Char) : Bool := '0' ≤ c && c ≤ '7'

/-- The byte that octal digits stand for. -/
def octal (digits : List Char) : UInt8 :=
  UInt8.ofNat (digits.foldl (fun n c => 8 * n + (c.toNat - '0'.toNat)) 0)

/-- The value of a hexadecimal digit. -/
def hexValue? (c : Char) : Option Nat :=
  if c.isDigit then some (c.toNat - '0'.toNat)
  else if 'a' ≤ c.toLower && c.toLower ≤ 'f' then some (c.toLower.toNat - 'a'.toNat + 10)
  else none

/-- Characters as bytes. -/
def encode (cs : List Char) : List UInt8 := Utf8.encode (String.ofList cs)

/-- Decodes what stands behind a backslash: the bytes, or nothing if the text ends here, and how
many characters that takes. In arguments a zero may stand before the octal digits. -/
def behindBackslash (hex argument : Bool) : List Char → Option (List UInt8) × Nat
  | [] => (some [92], 0)
  | c :: rest =>
    let nibbles := ((rest.take 2).map hexValue?).takeWhile Option.isSome |>.filterMap id
    let named := (rest.take (if c == 'u' then 4 else 8)).takeWhile fun c => (hexValue? c).isSome
    if c == 'c' then (none, 1)
    else if hex && c == 'x' && !nibbles.isEmpty then
      (some [UInt8.ofNat (nibbles.foldl (fun n d => 16 * n + d) 0)], 1 + nibbles.length)
    else if hex && (c == 'u' || c == 'U') && named.length == (if c == 'u' then 4 else 8) then
      (some (92 :: encode (c :: named.map Char.toUpper)), 1 + named.length)
    else if let some b := letter? c then (some [b], 1)
    else if isOctal c then
      if argument && c == '0' then
        let digits := (rest.take 3).takeWhile isOctal
        (some [octal digits], 1 + digits.length)
      else
        let digits := ((c :: rest).take 3).takeWhile isOctal
        (some [octal digits], digits.length)
    else (some (92 :: encode [c]), 1)

/-- The bytes a text stands for, and whether it goes on to its end. -/
def decode (hex argument : Bool) (cs : List Char) : List UInt8 × Bool :=
  match cs with
  | [] => ([], true)
  | '\\' :: rest =>
    match behindBackslash hex argument rest with
    | (none, _) => ([], false)
    | (some bytes, n) =>
      let (more, whole) := decode hex argument (rest.drop n)
      (bytes ++ more, whole)
  | c :: rest =>
    let (more, whole) := decode hex argument rest
    (encode [c] ++ more, whole)
termination_by cs.length
decreasing_by
  all_goals simp only [List.length_cons, List.length_drop]
  all_goals omega

end Stepwise.Host.Escape
