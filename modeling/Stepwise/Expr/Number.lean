import Stepwise.Value
import Stepwise.Expr.Fault

/-!
# Arithmetic

Numbers are signed 64-bit words and doubles. Booleans take part as 0 and 1, and an integer beyond
64 signed bits takes part as the double next to it. Integer results are exact or an overflow;
double results are finite or refused when they become a value.

* `checked_eq`: an integer result is the exact one when it has 64 bits.
* `floorDiv`, `floorMod`: the division that rounds down, by way of the one of words, which rounds
  toward zero.
-/

namespace Stepwise.Expr

/-- A number as it takes part in arithmetic. -/
inductive Num where
  | int (n : Int64)
  | float (x : Float)

namespace Num

/-- The integer has 64 bits and a sign. -/
def inRange (n : Int) : Bool := -(Nat.pow 2 63 : Int) ≤ n && n < Nat.pow 2 63

/-- The number a value takes part as. -/
def ofValue? : Value → Option Num
  | .int n => some (if inRange n then int (.ofInt n) else float (Float.ofInt n))
  | .float x => some (float x)
  | .bool b => some (int (if b then 1 else 0))
  | _ => none

/-- The double next to a number. -/
def toFloat : Num → Float
  | int n => Float.ofInt n.toInt
  | float x => x

/-- The number as a value. -/
def toValue : Num → Except EvalFault Value
  | int n => .ok (.int n.toInt)
  | float x => if x.isFinite then .ok (.float x) else .error .notFinite

/-- An integer result, unless it overflows. -/
def checked (n : Int) : Except EvalFault Num :=
  if inRange n then .ok (int (.ofInt n)) else .error .overflow

theorem checked_eq {n : Int} (h : -(Nat.pow 2 63 : Int) ≤ n ∧ n < Nat.pow 2 63) :
    checked n = .ok (int (.ofInt n)) := by
  rw [checked, if_pos]
  simp only [inRange, Bool.and_eq_true, decide_eq_true_eq]
  exact h

/-- The words divide: the divisor is not zero, and the quotient is not the one that has more than
64 bits. -/
def divisible (a b : Int64) : Bool := b != 0 && !(a == Int64.minValue && b == -1)

/-- The quotient toward zero, where there is one. -/
def quotient? (a b : Int64) : Option Int64 := if divisible a b then some (a / b) else none

/-- What the quotient toward zero leaves, where there is one. -/
def remainder? (a b : Int64) : Option Int64 := if divisible a b then some (a % b) else none

/-- The signs differ. -/
def opposed (a b : Int64) : Bool := decide (a < 0) != decide (b < 0)

/-- The quotient rounded down. The one toward zero is higher by one where something is left and the
signs differ. -/
def floorDiv (a b : Int64) : Except EvalFault Num :=
  match quotient? a b with
  | some q => .ok (int (if a % b != 0 && opposed a b then q - 1 else q))
  | none => .error .overflow

/-- What the quotient rounded down leaves. -/
def floorMod (a b : Int64) : Except EvalFault Num :=
  match remainder? a b with
  | some r => .ok (int (if r != 0 && opposed r b then r + b else r))
  | none => .error .overflow

/-- An operator on integers. -/
def integer (op : Arith) (a b : Int64) : Except EvalFault Num :=
  match op with
  | .add => checked (a.toInt + b.toInt)
  | .sub => checked (a.toInt - b.toInt)
  | .mul => checked (a.toInt * b.toInt)
  | .div => .ok (float (Float.ofInt a.toInt / Float.ofInt b.toInt))
  | .floorDiv => floorDiv a b
  | .mod => floorMod a b

/-- The greatest whole number that is not above the quotient, where it is finite. -/
def floorQuotient (a b : Float) : Float :=
  let q := a / b
  if q.isFinite then Double.floor q else q

/-- An operator on doubles. -/
def double (op : Arith) (a b : Float) : Float :=
  match op with
  | .add => a + b
  | .sub => a - b
  | .mul => a * b
  | .div => a / b
  | .floorDiv => floorQuotient a b
  | .mod => a - b * floorQuotient a b

/-- The operator divides. -/
def divides : Arith → Bool
  | .div | .floorDiv | .mod => true
  | _ => false

/-- An operator on numbers. -/
def arith (op : Arith) (a b : Num) : Except EvalFault Num :=
  if divides op && b.toFloat == 0 then .error .divisionByZero
  else
    match a, b with
    | int a, int b => integer op a b
    | a, b => .ok (float (double op a.toFloat b.toFloat))

/-- The number with the opposite sign. -/
def neg : Num → Except EvalFault Num
  | int n => checked (-n.toInt)
  | float x => .ok (float (-x))

/-- The number without its sign. -/
def abs : Num → Except EvalFault Num
  | int n => checked n.toInt.natAbs
  | float x => .ok (float x.abs)

/-- The numbers are equal, as integers or as doubles. -/
def eq : Num → Num → Bool
  | int a, int b => a == b
  | a, b => a.toFloat == b.toFloat

/-- The order of the numbers, as integers or as doubles. -/
def order : Num → Num → Option Ordering
  | int a, int b => some (if a < b then .lt else if a = b then .eq else .gt)
  | a, b =>
    let x := a.toFloat
    let y := b.toFloat
    if x < y then some .lt else if x == y then some .eq else if y < x then some .gt else none

end Num

end Stepwise.Expr
