/-!
# The exact value of a double

A finite double is `± mantissa · 2 ^ exponent`. Rounding to whole numbers is done on these parts
in integer arithmetic, so that it is the mathematical rounding and can be reasoned about.

* `divHalfEven_le`: rounding a quotient goes to one of its two neighbours.
-/

namespace Stepwise.Double

/-- Sign, and magnitude `mantissa · 2 ^ exponent`. -/
structure Parts where
  negative : Bool
  mantissa : Nat
  exponent : Int

/-- The parts of a finite double. -/
def parts (x : Float) : Parts :=
  let bits : Nat := x.toBits.toNat
  let field : Nat := bits / Nat.pow 2 52 % Nat.pow 2 11
  let fraction := bits % Nat.pow 2 52
  let negative := Nat.pow 2 63 ≤ bits
  if field == 0 then ⟨negative, fraction, -1074⟩
  else ⟨negative, fraction + Nat.pow 2 52, (field : Int) - 1075⟩

/-- The quotient rounded to the nearest whole number, halves to the even one. -/
def divHalfEven (num den : Nat) : Nat :=
  let q := num / den
  let twice := 2 * (num % den)
  if den < twice || (twice == den && q % 2 == 1) then q + 1 else q

theorem divHalfEven_le (num den : Nat) :
    num / den ≤ divHalfEven num den ∧ divHalfEven num den ≤ num / den + 1 := by
  unfold divHalfEven
  dsimp only
  split <;> omega

/-- The double with this whole value, where zero keeps the given sign. -/
def ofWhole (negative : Bool) (magnitude : Nat) : Float :=
  let x := Float.ofNat magnitude
  if negative then -x else x

/-- Applies a rounding of quotients to a magnitude that has a fraction. -/
def Parts.round (p : Parts) (quotient : Nat → Nat → Nat) : Nat :=
  if 0 ≤ p.exponent then p.mantissa * Nat.pow 2 p.exponent.toNat
  else quotient p.mantissa (Nat.pow 2 (-p.exponent).toNat)

/-- The whole number nearest to a finite double, halves to the even one. -/
def roundHalfEven (x : Float) : Float :=
  let p := parts x
  if 0 ≤ p.exponent then x else ofWhole p.negative (p.round divHalfEven)

/-- The greatest whole number that is not above a finite double. -/
def floor (x : Float) : Float :=
  let p := parts x
  if 0 ≤ p.exponent then x
  else ofWhole p.negative (p.round fun num den => if p.negative then (num + den - 1) / den else num / den)

/-- A finite double without its fraction. -/
def toInt (x : Float) : Int :=
  let p := parts x
  let n := p.round (· / ·)
  if p.negative then -n else n

/-- A finite double that is a whole number. -/
def isWhole (x : Float) : Bool :=
  let p := parts x
  0 ≤ p.exponent || p.mantissa % Nat.pow 2 (-p.exponent).toNat == 0

/-- The closest bound, for a number outside them. -/
def clamp (low high n : Int) : Int := max low (min high n)

/-- The double without its fraction in 64-bit signed range. What lies outside becomes the closest
bound, and what is no number becomes zero. -/
def toInt64 (x : Float) : Int :=
  if x.isNaN then 0
  else if x.isFinite then clamp (-(Nat.pow 2 63 : Int)) (Nat.pow 2 63 - 1) (toInt x)
  else if 0 < x then Nat.pow 2 63 - 1 else -(Nat.pow 2 63 : Int)

/-- The power by repeated squaring, a negative one as the reciprocal of the positive. -/
def powNat (base : Float) (n : Nat) (acc : Float) : Float :=
  let acc := if n % 2 == 1 then acc * base else acc
  if n / 2 = 0 then acc else powNat (base * base) (n / 2) acc
termination_by n
decreasing_by omega

/-- An integer power of a double. -/
def pow (base : Float) (n : Int) : Float :=
  let magnitude := powNat base n.natAbs 1
  if n < 0 then 1 / magnitude else magnitude

end Stepwise.Double
