import Stepwise.Store
import Stepwise.Expr.Number
import Stepwise.Json.Print
import Stepwise.Screen

/-!
# The values of expressions

Evaluation reads variables and nothing else. Comparison promotes numbers, `and` and `or` give the
operand that decided, and what `+` and `*` build stays below a size counted through every nesting
level.

* `evaluate`: screens, reads and evaluates a text, in this order.
-/

namespace Stepwise.Expr

/-- A result, or why an operation has none. -/
abbrev Result := Except EvalFault Value

/-! ## Equality and order -/

mutual

/-- Equality with promotion: numbers by value, lists item by item, all else as data. -/
def equalTo : Value → Value → Bool
  | .list as, .list bs => itemsEqual as bs
  | a, b =>
    match Num.ofValue? a, Num.ofValue? b with
    | some x, some y => x.eq y
    | _, _ => a.same b

/-- Equality item by item. -/
def itemsEqual : List Value → List Value → Bool
  | [], [] => true
  | a :: as, b :: bs => equalTo a b && itemsEqual as bs
  | _, _ => false

end

/-- The order of two texts by code points. -/
def textOrder (a b : String) : Ordering := if a < b then .lt else if a = b then .eq else .gt

/-- The order of two values: numbers among each other, and strings. -/
def order (a b : Value) : Except EvalFault Ordering :=
  let unorderable := .error (.unorderable a.typeName b.typeName)
  match Num.ofValue? a, Num.ofValue? b with
  | some x, some y =>
    match x.order y with
    | some o => .ok o
    | none => unorderable
  | _, _ =>
    match a, b with
    | .str s, .str t => .ok (textOrder s t)
    | _, _ => unorderable

/-- An item of a list, a part of a string, or a name in a dictionary. -/
def member (container item : Value) : Except EvalFault Bool :=
  match container, item with
  | .str text, .str part => .ok (Text.occursIn part.toList text.toList)
  | .list items, item => .ok (items.any (equalTo · item))
  | .dict entries, .str name => .ok (Entries.contains entries name)
  | container, item => .error (.badMembership container.typeName item.typeName)

/-- The relation holds between the two values. -/
def related (relation : Relation) (a b : Value) : Except EvalFault Bool :=
  match relation with
  | .eq => .ok (equalTo a b)
  | .ne => .ok (!equalTo a b)
  | .lt => (order a b).map (· == .lt)
  | .le => (order a b).map (· != .gt)
  | .gt => (order a b).map (· == .gt)
  | .ge => (order a b).map (· != .lt)
  | .isIn => member b a
  | .notIn => (member b a).map (!·)

/-! ## Sizes -/

/-- The greatest size of what `+` and `*` build. -/
def maxSize : Nat := 1048576

/-- The greatest count of 64 bits. -/
def maxCount : Nat := Nat.pow 2 64 - 1

/-- The sum of two counts, or the greatest count where the sum is above it. -/
def addCounts (m n : Nat) : Nat := min (m + n) maxCount

/-- The product of two counts, or the greatest count where the product is above it. -/
def mulCounts (m n : Nat) : Nat := min (m * n) maxCount

mutual

/-- Bytes of strings and numbers of items and entries, through every nesting level. -/
def size : Value → Nat
  | .str s => s.utf8ByteSize
  | .list items => sizeItems items.length items
  | .dict entries => sizeEntries entries.length entries
  | _ => 0

/-- Adds the sizes of items. -/
def sizeItems (total : Nat) : List Value → Nat
  | [] => total
  | v :: vs => sizeItems (addCounts total (size v)) vs

/-- Adds the sizes of entries with their names. -/
def sizeEntries (total : Nat) : List (String × Value) → Nat
  | [] => total
  | (name, v) :: rest => sizeEntries (addCounts (addCounts total name.utf8ByteSize) (size v)) rest

end

/-- What is built, unless it is too large. -/
def bounded (what : Built) (size : Nat) (v : Unit → Value) : Result :=
  if maxSize < size then .error (.tooLong what) else .ok (v ())

/-! ## Operators -/

/-- So many items of a list that begins again whenever it ends. -/
def cycled (items : List Value) (count : Nat) : List Value :=
  let cells := items.toArray
  (List.range count).filterMap fun i => cells[i % cells.size]?

/-- Copies of a string or list, one after the other. The number of items wants no more than 64 bits,
since it is not above the size. -/
def repeated (sequence count : Value) : Result :=
  match Num.ofValue? count with
  | some (.int n) =>
    let copies := n.toInt.toNat
    match sequence with
    | .str s =>
      bounded .repeatedString (mulCounts (size sequence) copies) fun _ =>
        .str (if s = "" then "" else String.join (List.replicate copies s))
    | .list items =>
      bounded .repeatedList (mulCounts (size sequence) copies) fun _ =>
        .list (cycled items (items.length * copies % Nat.pow 2 64))
    | _ => .error (.badCount count.typeName)
  | _ => .error (.badCount count.typeName)

/-- An operator on numbers as values. -/
def numeric (op : Arith) (a b : Value) : Result :=
  match Num.ofValue? a, Num.ofValue? b with
  | some x, some y =>
    match Num.arith op x y with
    | .ok z => z.toValue
    | .error e => .error e
  | _, _ => .error (.badOperands op a.typeName b.typeName)

/-- A string or a list. -/
def isSequence : Value → Bool
  | .str _ | .list _ => true
  | _ => false

/-- An arithmetic operator on values. -/
def binary (op : Arith) (a b : Value) : Result :=
  match op, a, b with
  | .add, .str s, .str t =>
    bounded .joinedString (addCounts (size a) (size b)) fun _ => .str (s ++ t)
  | .add, .list as, .list bs =>
    bounded .joinedList (addCounts (size a) (size b)) fun _ => .list (as ++ bs)
  | .mul, a, b =>
    if isSequence a then repeated a b
    else if isSequence b then repeated b a
    else numeric .mul a b
  | op, a, b => numeric op a b

/-- The place an index points to, where a negative one counts from the end. -/
def position (index : Value) (length : Nat) : Except EvalFault Nat :=
  match Num.ofValue? index with
  | some (.int n) =>
    let place := if n < 0 then n.toInt + length else n.toInt
    if 0 ≤ place && place < length then .ok place.toNat else .error .outOfRange
  | _ => .error (.badIndex index.typeName)

/-- The part of a value at an index or under a name. -/
def subscript (target index : Value) : Result :=
  match target with
  | .list items => (position index items.length).map fun i => items.getD i .null
  | .str s =>
    let cs := s.toList
    (position index cs.length).map fun i => .str (String.ofList (cs.drop i |>.take 1))
  | .dict entries =>
    let key := index.display
    match Entries.get? entries key with
    | some v => .ok v
    | none => .error (.missingKey key)
  | target => .error (.notSubscriptable target.typeName)

/-! ## Functions -/

/-- The length of a string, list or dictionary. -/
def length : Value → Result
  | .str s => .ok (.int s.length)
  | .list items => .ok (.int items.length)
  | .dict entries => .ok (.int entries.length)
  | v => .error (.noLength v.typeName)

/-- A value as an integer: text is read, and a double loses its fraction. -/
def toInt : Value → Except EvalFault Int
  | .str s =>
    match Double.readInt64 (Text.trim s) with
    | some n => .ok n
    | none => .error (.badIntText s)
  | v =>
    match Num.ofValue? v with
    | some (.int n) => .ok n.toInt
    | some (.float x) => .ok (Double.toInt64 x)
    | none => .error (.badIntType v.typeName)

/-- A value as a double: text is read. -/
def toFloat : Value → Except EvalFault Float
  | .str s =>
    match Double.read (Text.trim s) with
    | some x => .ok x
    | none => .error (.badFloatText s)
  | v =>
    match Num.ofValue? v with
    | some x => .ok x.toFloat
    | none => .error (.badFloatType v.typeName)

/-- The absolute value. -/
def absolute (v : Value) : Result :=
  match Num.ofValue? v with
  | some x => x.abs.bind Num.toValue
  | none => .error .absOfNonNumber

/-- The nearest integer. -/
def roundToInt (v : Value) : Result :=
  match Num.ofValue? v with
  | some x => .ok (.int (Double.toInt64 (Double.roundHalfEven x.toFloat)))
  | none => .error .roundOfNonNumber

/-- The exponent of a power of ten, where what has no 32 bits counts as zero. -/
def smallExponent (n : Int) : Int := if -(Nat.pow 2 31 : Int) ≤ n && n < Nat.pow 2 31 then n else 0

/-- The nearest double with so many digits behind the point. -/
def roundToDigits (v digits : Value) : Result :=
  match toInt digits with
  | .error e => .error e
  | .ok n =>
    match Num.ofValue? v with
    | none => .error .roundOfNonNumber
    | some x =>
      let scale := Double.pow 10 (smallExponent n)
      let scaled := x.toFloat * scale
      let rounded := if scaled.isFinite then Double.roundHalfEven scaled else scaled
      Num.toValue (.float (rounded / scale))

/-- The first of the values that stands in the given order to the others. -/
def extreme (function : String) (wanted : Ordering) : List Value → Result
  | [] => .error (.emptySequence function)
  | first :: rest =>
    rest.foldlM (fun best v => (order v best).map fun o => if o == wanted then v else best) first

/-- The candidates of `min` and `max`: the items of a single list, or the arguments. -/
def candidates : List Value → List Value
  | [.list items] => items
  | arguments => arguments

/-- Applies a function of one argument. -/
def single (function : String) (arguments : List Value) (f : Value → Result) : Result :=
  match arguments with
  | [v] => f v
  | _ => .error (.oneArgument function)

/-- Applies a function. -/
def apply (function : String) (arguments : List Value) : Result :=
  match function with
  | "len" => single function arguments length
  | "str" => single function arguments fun v => .ok (.str v.display)
  | "bool" => single function arguments fun v => .ok (.bool v.truthy)
  | "int" => single function arguments fun v => (toInt v).map .int
  | "float" => single function arguments fun v => (toFloat v).bind fun x => Num.toValue (.float x)
  | "abs" => single function arguments absolute
  | "round" =>
    match arguments with
    | [v] => roundToInt v
    | [v, digits] => roundToDigits v digits
    | _ => .error .roundArity
  | "min" => extreme function .lt (candidates arguments)
  | "max" => extreme function .gt (candidates arguments)
  | _ => .error (.unknownFunction function)

/-! ## Evaluation -/

/-- The result of an operation as the result of an expression. -/
def lift {α : Type} : Except EvalFault α → Except Cause α
  | .ok a => .ok a
  | .error e => .error (.expression (.eval e))

mutual

/-- The value of an expression. -/
def eval (store : Store) : Expr → Except Cause Value
  | .lit v => .ok v
  | .var name =>
    match store.get? name with
    | some v => .ok v
    | none => .error (.undefinedVariable name)
  | .list items => (evalAll store items).map .list
  | .neg operand => do
    let v ← eval store operand
    match Num.ofValue? v with
    | some x => lift (x.neg.bind Num.toValue)
    | none => lift (.error (.badNegation v.typeName))
  | .not operand => do
    let v ← eval store operand
    return .bool !v.truthy
  | .and left right => do
    let v ← eval store left
    if v.truthy then eval store right else return v
  | .or left right => do
    let v ← eval store left
    if v.truthy then return v else eval store right
  | .arith op left right => do
    let a ← eval store left
    let b ← eval store right
    lift (binary op a b)
  | .compare first links => do
    let a ← eval store first
    evalLinks store a links
  | .index target place => do
    let t ← eval store target
    let i ← eval store place
    lift (subscript t i)
  | .call function arguments => do
    let vs ← evalAll store arguments
    lift (apply function vs)

/-- The values of expressions from left to right. -/
def evalAll (store : Store) : List Expr → Except Cause (List Value)
  | [] => .ok []
  | e :: es => do
    let v ← eval store e
    let vs ← evalAll store es
    return v :: vs

/-- The links of a comparison hold, each operand being evaluated when it is reached. -/
def evalLinks (store : Store) (left : Value) : List (Relation × Expr) → Except Cause Value
  | [] => .ok (.bool true)
  | (relation, e) :: links => do
    let right ← eval store e
    if ← lift (related relation left right) then evalLinks store right links
    else return .bool false

end

/-- The expression a text stands for. -/
def read (text : String) : Except Cause Expr :=
  match parse text with
  | .ok e => .ok e
  | .error fault => .error (.expression (.parse fault))

/-- The value of a text: it is screened, read and evaluated. -/
def evaluate (text : String) (store : Store) : Except Cause Value := do
  Screen.expression text
  let e ← read text
  eval store e

theorem evaluate_of_read {text : String} {store : Store} {e : Expr}
    (hscreen : Screen.expression text = .ok ()) (hread : read text = .ok e) :
    evaluate text store = eval store e := by
  rw [evaluate, hscreen, hread]
  rfl

/-- The truth of a text. -/
def holds (text : String) (store : Store) : Except Cause Bool :=
  (evaluate text store).map Value.truthy

end Stepwise.Expr
