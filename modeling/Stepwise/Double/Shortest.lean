import Stepwise.Double.Parts

/-!
# The shortest decimal that reads back

Every finite double is the nearest one to a whole interval of reals. Of the decimals in this
interval those with the fewest digits are sought, on ever finer decimal grids, and of two on the
same grid the nearer one is taken.

* `shortest`: the digits of a double, and where the point stands.
-/

namespace Stepwise.Double

/-- The reals that round to a double, on a scale where all three bounds are whole. -/
structure Interval where
  low : Nat
  value : Nat
  high : Nat
  exponent : Int
  closed : Bool

/-- The interval around `mantissa · 2 ^ exponent`. Below a power of two the doubles lie closer
together, and a bound counts when ties go to the double's even mantissa. -/
def Parts.interval (p : Parts) : Interval where
  low := 4 * p.mantissa - (if p.mantissa == Nat.pow 2 52 && -1074 < p.exponent then 1 else 2)
  value := 4 * p.mantissa
  high := 4 * p.mantissa + 2
  exponent := p.exponent - 2
  closed := p.mantissa % 2 == 0

/-- Whole numbers in the ratio of the unit `10 ^ k` to the unit `2 ^ exponent`. -/
def unitRatio (exponent k : Int) : Nat × Nat :=
  (Nat.pow 10 k.toNat * Nat.pow 2 (-exponent).toNat,
    Nat.pow 2 exponent.toNat * Nat.pow 10 (-k).toNat)

/-- `digits` tenth powers, of size `unit` on a scale with `one`, lie in the interval. -/
def Interval.mem (i : Interval) (unit one digits : Nat) : Bool :=
  if i.closed then i.low * one ≤ digits * unit && digits * unit ≤ i.high * one
  else i.low * one < digits * unit && digits * unit < i.high * one

/-- The multiple of `10 ^ k` in the interval that is nearest to the value. -/
def Interval.hit (i : Interval) (k : Int) : Option Nat :=
  let (unit, one) := unitRatio i.exponent k
  let below := i.value * one / unit
  let above := below + 1
  match i.mem unit one below, i.mem unit one above with
  | true, true =>
    let down := i.value * one - below * unit
    let up := above * unit - i.value * one
    some (if down < up || (down == up && below % 2 == 0) then below else above)
  | true, false => some below
  | false, true => some above
  | false, false => none

/-- The first hit on the grids `10 ^ k`, `10 ^ (k - 1)` and so on. -/
def Interval.search (i : Interval) : Nat → Int → Nat × Int
  | 0, k => (i.value, k)
  | fuel + 1, k =>
    match i.hit k with
    | some digits => (digits, k)
    | none => i.search fuel (k - 1)

/-- Digits `d` and a power `k`, where `d · 10 ^ k` is the shortest decimal that reads back as the
magnitude of a finite double other than zero. A grid one step coarser than the value's first digit
is where the search begins, and seventeen digits are always enough. -/
def shortest (x : Float) : Nat × Int :=
  let p := parts x
  let log := p.exponent + Nat.log2 p.mantissa
  p.interval.search 20 (log * 30103 / 100000 + 1)

end Stepwise.Double
