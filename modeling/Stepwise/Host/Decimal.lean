import Stepwise.Double.Parts

/-!
# Decimal forms of numbers

A number in an argument is first rounded to as many bits as a program computes with, and then
written in decimal: with a fixed number of places, with an exponent, or in the shorter of these two
ways. All roundings go to the nearest value, halves to the even one.

* `Decimal.read`: the number in front of a text.
* `Decimal.written`: a number as a conversion writes it.
-/

namespace Stepwise.Host.Decimal

/-- A number without its sign. -/
inductive Magnitude where
  | ratio (num den : Nat)
  | infinite
  | undefined

/-- What is written for a number without digits. -/
def Magnitude.name : Magnitude → String
  | .infinite => "inf"
  | _ => "nan"

/-- A number. -/
structure Number where
  negative : Bool := false
  magnitude : Magnitude

/-! ## Reading -/

/-- The value of a digit, which is large if the character is none. -/
def digitValue (c : Char) : Nat :=
  if c.isDigit then c.toNat - '0'.toNat
  else if c.isAlpha then c.toLower.toNat - 'a'.toNat + 10
  else 99

/-- The number that digits in a base stand for. -/
def value (base : Nat) (digits : List Char) : Nat :=
  digits.foldl (fun n c => base * n + digitValue c) 0

/-- A whole part, a fraction behind a point, and what follows them. -/
def parts (base : Nat) (cs : List Char) : List Char × List Char × List Char :=
  let isDigit (c : Char) : Bool := digitValue c < base
  let whole := cs.takeWhile isDigit
  match cs.dropWhile isDigit with
  | '.' :: rest => (whole, rest.takeWhile isDigit, rest.dropWhile isDigit)
  | rest => (whole, [], rest)

/-- An exponent behind its mark, which counts only if it has digits, and what follows it. -/
def exponent (mark : Char) (cs : List Char) : Int × List Char :=
  match cs with
  | c :: rest =>
    let (sign, rest) : Int × List Char := match rest with
      | '-' :: rest => (-1, rest)
      | '+' :: rest => (1, rest)
      | _ => (1, rest)
    let digits := rest.takeWhile Char.isDigit
    if c.toLower == mark && !digits.isEmpty then
      (sign * value 10 digits, rest.dropWhile Char.isDigit)
    else (0, cs)
  | [] => (0, cs)

/-- A whole number times a power. What is far outside every range is infinite or zero. -/
def scaled (m base : Nat) (e : Int) : Magnitude :=
  if m = 0 || e < -20000 then .ratio 0 1
  else if 20000 < e then .infinite
  else .ratio (m * Nat.pow base e.toNat) (Nat.pow base (-e).toNat)

/-- The magnitude in front of a text, and what follows it. -/
def magnitude? (cs : List Char) : Option (Magnitude × List Char) :=
  let named (word : String) : Bool := word.toList.isPrefixOf (cs.map Char.toLower)
  if named "infinity" then some (.infinite, cs.drop 8)
  else if named "inf" then some (.infinite, cs.drop 3)
  else if named "nan" then some (.undefined, cs.drop 3)
  else
    let hexadecimal := named "0x" && digitValue ((cs.drop 2).headD ' ') < 16
    if hexadecimal then
      let (whole, fraction, rest) := parts 16 (cs.drop 2)
      let (e, rest) := exponent 'p' rest
      some (scaled (value 16 (whole ++ fraction)) 2 (e - 4 * fraction.length), rest)
    else
      let (whole, fraction, rest) := parts 10 cs
      if whole.isEmpty && fraction.isEmpty then none
      else
        let (e, rest) := exponent 'e' rest
        some (scaled (value 10 (whole ++ fraction)) 10 (e - fraction.length), rest)

/-- The number in front of a text, and what follows it. -/
def read (cs : List Char) : Option (Number × List Char) :=
  match cs with
  | '-' :: rest => (magnitude? rest).map fun (m, rest) => (⟨true, m⟩, rest)
  | '+' :: rest => (magnitude? rest).map fun (m, rest) => (⟨false, m⟩, rest)
  | _ => (magnitude? cs).map fun (m, rest) => (⟨false, m⟩, rest)

/-- The nearest number with so many bits. -/
def rounded (bits : Nat) : Magnitude → Magnitude
  | .ratio num den =>
    let low : Int := (num.log2 : Int) - den.log2 - bits
    let fits (e : Int) : Bool :=
      num * Nat.pow 2 (-e).toNat < Nat.pow 2 bits * den * Nat.pow 2 e.toNat
    let e := if fits low then low else low + 1
    scaled (Double.divHalfEven (num * Nat.pow 2 (-e).toNat) (den * Nat.pow 2 e.toNat)) 2 e
  | m => m

/-! ## Writing -/

/-- The whole number nearest to a ratio times a power of ten. -/
def digitsAt (num den : Nat) (k : Int) : Nat :=
  Double.divHalfEven (num * Nat.pow 10 k.toNat) (den * Nat.pow 10 (-k).toNat)

/-- The point and the digits behind it. -/
def fraction (keepsPoint : Bool) (ds : List Char) : List Char :=
  if ds.isEmpty && !keepsPoint then [] else '.' :: ds

/-- Zeros before digits up to a length. -/
def filled (length : Nat) (ds : List Char) : List Char :=
  List.replicate (length - ds.length) '0' ++ ds

/-- Writes with a number of places. -/
def fixed (keepsPoint : Bool) (places num den : Nat) : List Char :=
  let ds := filled (places + 1) (Nat.toDigits 10 (digitsAt num den places))
  ds.take (ds.length - places) ++ fraction keepsPoint (ds.drop (ds.length - places))

/-- The exponent of the first digit of a ratio. -/
def firstPlace (num den : Nat) : Int :=
  if num = 0 then 0
  else
    let k : Int := ((Nat.toDigits 10 num).length : Int) - (Nat.toDigits 10 den).length
    if den * Nat.pow 10 k.toNat ≤ num * Nat.pow 10 (-k).toNat then k else k - 1

/-- The digits with a number of places behind the first one, and the exponent of the first one. -/
def leading (places num den : Nat) : List Char × Int :=
  let k := firstPlace num den
  let m := digitsAt num den (places - k)
  if m = Nat.pow 10 (places + 1) then (Nat.toDigits 10 (m / 10), k + 1)
  else (filled (places + 1) (Nat.toDigits 10 m), k)

/-- Writes an exponent. -/
def exponentText (k : Int) : List Char :=
  'e' :: (if k < 0 then '-' else '+') :: filled 2 (Nat.toDigits 10 k.natAbs)

/-- Zeros at the end are left out. -/
def withoutZeros (ds : List Char) : List Char := (ds.reverse.dropWhile (· == '0')).reverse

/-- Writes with an exponent. -/
def scientific (keepsPoint : Bool) (places num den : Nat) : List Char :=
  let (ds, k) := leading places num den
  ds.take 1 ++ fraction keepsPoint (ds.drop 1) ++ exponentText k

/-- Writes with a number of digits, with an exponent only if it is far from zero, and without zeros
at the end unless the point is kept. -/
def general (keepsPoint : Bool) (digits num den : Nat) : List Char :=
  let digits := max 1 digits
  let (ds, k) := leading (digits - 1) num den
  let short (ds : List Char) : List Char := if keepsPoint then ds else withoutZeros ds
  if -4 ≤ k && k < digits then
    let text := fixed false ((digits : Int) - 1 - k).toNat num den
    text.takeWhile (· != '.') ++ fraction keepsPoint (short ((text.dropWhile (· != '.')).drop 1))
  else ds.take 1 ++ fraction keepsPoint (short (ds.drop 1)) ++ exponentText k

/-- The digits that a conversion with one of the letters `e`, `f` and `g` writes, unless there are
none. -/
def written (letter : Char) (keepsPoint : Bool) (precision : Option Nat) :
    Magnitude → Option (List Char)
  | .ratio num den =>
    let places := precision.getD 6
    some (match letter with
      | 'e' => scientific keepsPoint places num den
      | 'f' => fixed keepsPoint places num den
      | _ => general keepsPoint places num den)
  | _ => none

end Stepwise.Host.Decimal
