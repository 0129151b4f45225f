import Stepwise.Host.Printf

/-!
# Tests

Conditions on texts, integers and files, joined by `-a` and `-o`.

* `Test.holds`: the truth of a condition.
-/

namespace Stepwise.Host.Shell.Test

/-- What a path leads to. -/
inductive Kind where
  | directory
  | device
  | program
  | file (size : Nat)
deriving DecidableEq

/-- What is wrong with a test. -/
inductive Fault where
  | unexpectedOperator (word : List Char)
  | argumentExpected (op : List Char)
  | parenthesisExpected
  | illegalNumber (word : List Char)

/-- A fault in words. -/
def Fault.message : Fault → List Char
  | unexpectedOperator word => word ++ ": unexpected operator".toList
  | argumentExpected op => op ++ ": argument expected".toList
  | parenthesisExpected => "closing paren expected".toList
  | illegalNumber word => "Illegal number: ".toList ++ word

/-- What a word means in a test. -/
inductive Meaning where
  | unary
  | binary
  | opposite
  | conjunction
  | disjunction
  | opening
  | ending
deriving DecidableEq

/-- The operators with one operand. -/
def unary : List String :=
  ["-r", "-w", "-x", "-e", "-f", "-d", "-c", "-b", "-p", "-u", "-g", "-k", "-s", "-t", "-z", "-n",
   "-h", "-O", "-G", "-L", "-S"]

/-- The operators with two operands. -/
def binary : List String :=
  ["=", "!=", "<", ">", "-eq", "-ne", "-ge", "-gt", "-le", "-lt", "-nt", "-ot", "-ef"]

/-- What a word means where it stands. -/
def meaning? (word : List Char) : Option Meaning :=
  let w := String.ofList word
  if unary.contains w then some .unary
  else if binary.contains w then some .binary
  else match w with
    | "!" => some .opposite
    | "-a" => some .conjunction
    | "-o" => some .disjunction
    | "(" => some .opening
    | ")" => some .ending
    | _ => none

/-- What the first of some words means, which may be an operand. -/
def first? (words : List (List Char)) : Option Meaning :=
  match words with
  | [] => none
  | word :: rest =>
    let isOperand : Bool := match rest with
      | [] => true
      | [_] => false
      | next :: _ => meaning? next == some .binary
    match meaning? word with
    | some .unary => if isOperand then none else some .unary
    | some .opening => if rest.isEmpty then none else some .opening
    | m => m

/-- An integer in a test. -/
def integer (word : List Char) : Except Fault Int :=
  let trimmed := (word.reverse.dropWhile Char.isWhitespace).reverse.dropWhile Char.isWhitespace
  let digits := match trimmed with
    | '-' :: ds | '+' :: ds => ds
    | ds => ds
  let n : Int := (Decimal.value 10 digits : Int) * if trimmed.head? == some '-' then -1 else 1
  if digits.isEmpty || !digits.all Char.isDigit || n < -9223372036854775808 ||
      9223372036854775807 < n then
    .error (.illegalNumber word)
  else .ok n

/-- The truth of an operator with two operands. -/
def compare (op : String) (a b : List Char) : Except Fault Bool :=
  let integers (f : Int → Int → Bool) : Except Fault Bool := do
    return f (← integer a) (← integer b)
  match op with
  | "=" => .ok (a == b)
  | "!=" => .ok (a != b)
  | "<" => .ok (String.ofList a < String.ofList b)
  | ">" => .ok (String.ofList b < String.ofList a)
  | "-eq" => integers (· == ·)
  | "-ne" => integers (· != ·)
  | "-lt" => integers (fun a b => a < b)
  | "-le" => integers (fun a b => a ≤ b)
  | "-gt" => integers (fun a b => b < a)
  | "-ge" => integers (fun a b => b ≤ a)
  | _ => .ok false

/-- The truth of an operator with one operand. -/
def property (kind? : List Char → Option Kind) (op : String) (a : List Char) :
    Except Fault Bool :=
  match op with
  | "-z" => .ok a.isEmpty
  | "-n" => .ok !a.isEmpty
  | "-t" => (integer a).map fun _ => false
  | "-e" | "-r" | "-w" | "-O" | "-G" => .ok (kind? a).isSome
  | "-f" => .ok (match kind? a with
    | some .program | some (.file _) => true
    | _ => false)
  | "-d" => .ok (kind? a == some .directory)
  | "-c" => .ok (kind? a == some .device)
  | "-x" => .ok (kind? a == some .directory || kind? a == some .program)
  | "-s" => .ok (match kind? a with
    | some .directory | some .program => true
    | some (.file n) => 0 < n
    | _ => false)
  | _ => .ok false

/-- The truth of what was read, and the words from the last one that was read on. -/
abbrev Reading := Except Fault (Bool × List (List Char))

mutual

/-- Reads conditions joined by `-o`, in at most so many steps. -/
def anyOf (kind? : List Char → Option Kind) : Nat → List (List Char) → Reading
  | 0, ws => .ok (false, ws)
  | n + 1, ws => do
    let (a, ws) ← allOf kind? n ws
    if first? ws.tail = some .disjunction then
      let (b, ws) ← anyOf kind? n (ws.drop 2)
      return (a || b, ws)
    else return (a, ws)

/-- Reads conditions joined by `-a`. -/
def allOf (kind? : List Char → Option Kind) : Nat → List (List Char) → Reading
  | 0, ws => .ok (false, ws)
  | n + 1, ws => do
    let (a, ws) ← oneOf kind? n ws
    if first? ws.tail = some .conjunction then
      let (b, ws) ← allOf kind? n (ws.drop 2)
      return (a && b, ws)
    else return (a, ws)

/-- Reads one condition. -/
def oneOf (kind? : List Char → Option Kind) : Nat → List (List Char) → Reading
  | 0, ws => .ok (false, ws)
  | n + 1, ws =>
    match first? ws, ws with
    | _, [] => .ok (false, [])
    | some .opposite, _ :: rest =>
      if rest.isEmpty then .ok (true, ws)
      else (oneOf kind? n rest).map fun (b, ws) => (!b, ws)
    | some .opening, _ :: rest =>
      if first? rest = some .ending then .ok (false, rest)
      else do
        let (b, ws) ← anyOf kind? n rest
        if first? ws.tail = some .ending then return (b, ws.tail)
        else .error .parenthesisExpected
    | some .unary, op :: rest =>
      match rest with
      | [] => .error (.argumentExpected op)
      | a :: _ => (property kind? (String.ofList op) a).map fun b => (b, rest)
    | _, a :: rest =>
      match rest with
      | op :: operands =>
        if first? rest = some .binary then
          match operands with
          | [] => .error (.argumentExpected op)
          | b :: _ => (compare (String.ofList op) a b).map fun t => (t, operands)
        else .ok (!a.isEmpty, ws)
      | [] => .ok (!a.isEmpty, ws)

end

/-- The truth of all of some words. -/
def whole (kind? : List Char → Option Kind) (ws : List (List Char)) : Except Fault Bool := do
  let (b, ws) ← anyOf kind? (6 * ws.length + 6) ws
  match ws with
  | last :: _ :: _ => .error (.unexpectedOperator last)
  | _ => return b

/-- The truth of a condition. Up to four words are read by their number first. -/
def holds (kind? : List Char → Option Kind) : List (List Char) → Except Fault Bool
  | [] => .ok false
  | [a, op, b] =>
    if meaning? op = some .binary then compare (String.ofList op) a b
    else if a == ['('] && b == [')'] then whole kind? [op]
    else if a == ['!'] then (holds kind? [op, b]).map not
    else whole kind? [a, op, b]
  | [a, b, c, d] =>
    if a == ['('] && d == [')'] then whole kind? [b, c]
    else if a == ['!'] then (holds kind? [b, c, d]).map not
    else whole kind? [a, b, c, d]
  | ws => whole kind? ws

end Stepwise.Host.Shell.Test
