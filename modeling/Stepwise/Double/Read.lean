import Stepwise.Double.Parts

/-!
# Reading doubles

Decimal text is read as the double nearest to it, ties to the even one. Text that names an
infinity or says that it is no number is read too; underscores, blanks and hexadecimal are not.

* `read`, `readInt64`: the double and the integer that a text stands for.
-/

namespace Stepwise.Double

/-- The number that decimal digits stand for. -/
def digitsValue (digits : List Char) : Nat :=
  digits.foldl (fun n c => n * 10 + (c.toNat - '0'.toNat)) 0

/-- The double nearest to `m · 10 ^ e`. Exponents far outside the range of doubles are decided by
the number of digits alone. -/
def ofDecimal (m : Nat) (e : Int) : Float :=
  let size := e + (Nat.toDigits 10 m).length
  if m == 0 || size < -330 then 0
  else if 330 < size then 1 / 0
  else if 0 ≤ e then Float.ofScientific m false e.toNat
  else Float.ofScientific m true (-e).toNat

/-- A sign, read as whether it is a minus, and what follows. -/
def readSign : List Char → Bool × List Char
  | '-' :: cs => (true, cs)
  | '+' :: cs => (false, cs)
  | cs => (false, cs)

/-- An exponent part: empty, or a mark, a sign and digits to the end. -/
def readExponent : List Char → Option Int
  | [] => some 0
  | mark :: cs =>
    if mark == 'e' || mark == 'E' then
      let (negative, digits) := readSign cs
      if digits.isEmpty || !digits.all Char.isDigit then none
      else some (if negative then -(digitsValue digits : Int) else digitsValue digits)
    else none

/-- Digits, at most one point among them, and an exponent. -/
def readDecimal (cs : List Char) : Option Float :=
  let whole := cs.takeWhile Char.isDigit
  let (fraction, rest) := match cs.dropWhile Char.isDigit with
    | '.' :: rest => (rest.takeWhile Char.isDigit, rest.dropWhile Char.isDigit)
    | rest => ([], rest)
  if whole.isEmpty && fraction.isEmpty then none
  else (readExponent rest).map fun e =>
    ofDecimal (digitsValue (whole ++ fraction)) (e - fraction.length)

/-- The double a text stands for. -/
def read (text : String) : Option Float :=
  let (negative, cs) := readSign text.toList
  let magnitude : Option Float :=
    match String.ofList (cs.map Char.toLower) with
    | "inf" | "infinity" => some (1 / 0)
    | "nan" => some (0 / 0)
    | _ => readDecimal cs
  magnitude.map fun x => if negative then -x else x

/-- The signed 64-bit integer a text stands for: a sign and decimal digits. -/
def readInt64 (text : String) : Option Int :=
  let (negative, digits) := readSign text.toList
  if digits.isEmpty || !digits.all Char.isDigit then none
  else
    let n : Int := if negative then -(digitsValue digits : Int) else digitsValue digits
    if -(Nat.pow 2 63 : Int) ≤ n && n < Nat.pow 2 63 then some n else none

end Stepwise.Double
