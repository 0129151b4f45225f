import Stepwise.Double.Shortest

/-!
# Written forms of doubles

All written forms use the shortest digits that read back and differ in four decisions, collected in
a `Style`: which magnitudes are written positionally, whether a whole number keeps a point, and how
an exponent is written.
-/

namespace Stepwise.Double

/-- How a double is written. -/
structure Style where
  /-- The decimal exponents of the first digit for which the digits are written positionally. -/
  positional : Int → Bool
  /-- A whole number is written with `.0`. -/
  keepPoint : Bool
  /-- A positive exponent is written with its sign. -/
  signExponent : Bool

/-- Data: positional from 0.00001 up to below 10^16, otherwise like `1.5e+17`. -/
def Style.data : Style := ⟨fun e => -5 ≤ e && e < 16, true, true⟩

/-- Prose: always positional, and whole numbers without a point. -/
def Style.prose : Style := ⟨fun _ => true, false, false⟩

/-- Refusals: always positional, and whole numbers with a point. -/
def Style.refusal : Style := ⟨fun _ => true, true, false⟩

/-- Diagnostics: positional from 0.0001 up to below 10^16, otherwise like `1.5e17`. -/
def Style.diagnostic : Style := ⟨fun e => -4 ≤ e && e < 16, true, false⟩

/-- The digits of `d · 10 ^ k` written positionally. -/
def positional (keepPoint : Bool) (digits : List Char) (k : Int) : List Char :=
  if 0 ≤ k then
    digits ++ List.replicate k.toNat '0' ++ (if keepPoint then ['.', '0'] else [])
  else
    let places := (-k).toNat
    if places < digits.length then
      digits.take (digits.length - places) ++ ['.'] ++ digits.drop (digits.length - places)
    else ['0', '.'] ++ List.replicate (places - digits.length) '0' ++ digits

/-- The digits of `d · 10 ^ k` with one digit before the point and an exponent. -/
def scientific (signExponent : Bool) (digits : List Char) (e : Int) : List Char :=
  let mantissa := match digits with
    | [] => []
    | [d] => [d]
    | d :: rest => d :: '.' :: rest
  let sign := if e < 0 then ['-'] else if signExponent then ['+'] else []
  mantissa ++ ['e'] ++ sign ++ Nat.toDigits 10 e.natAbs

/-- A double as text. -/
def write (style : Style) (x : Float) : String :=
  if x.isNaN then "NaN"
  else
    let sign := if (parts x).negative then ['-'] else []
    let body :=
      if !x.isFinite then ['i', 'n', 'f']
      else if x == 0 then positional style.keepPoint ['0'] 0
      else
        let (d, k) := shortest x
        let digits := Nat.toDigits 10 d
        let e := k + digits.length - 1
        if style.positional e then positional style.keepPoint digits k
        else scientific style.signExponent digits e
    String.ofList (sign ++ body)

end Stepwise.Double
