import Stepwise.Host.Printf

/-!
# Arithmetic of the shell

Integers of 64 bits that wrap, with the operators of the shell in levels of precedence. A name
stands for the integer that is the value of the variable with that name, and can be assigned to.
An operand that does not count is read but not evaluated.

* `Arithmetic.evaluate`: the value of an expression, and what it assigns.
-/

namespace Stepwise.Host.Shell.Arithmetic

/-- What is wrong with an expression. -/
inductive Fault where
  | divisionByZero
  | expectingPrimary
  | expectingParenthesis
  | expectingColon
  | expectingEnd
  /-- The value of a variable is no integer. -/
  | illegalNumber (value : List Char)

/-- A fault of an expression in words. -/
def Fault.message (expression : List Char) : Fault → List Char
  | illegalNumber value => "Illegal number: ".toList ++ value
  | f =>
    let text := match f with
      | divisionByZero => "division by zero"
      | expectingPrimary => "expecting primary"
      | expectingParenthesis => "expecting ')'"
      | expectingColon => "expecting ':'"
      | _ => "expecting EOF"
    "arithmetic expression: ".toList ++ text.toList ++ ": \"".toList ++ expression ++ ['"']

/-- Wraps an integer to 64 bits. -/
def wrap (n : Int) : Int := n.bmod (Nat.pow 2 64)

/-- The truth of a proposition as an integer. -/
def truth (b : Bool) : Int := if b then 1 else 0

/-- The operators with two operands, the weakest level first, and longer ones first in a level. -/
def levels : List (List String) :=
  [["||"], ["&&"], ["|"], ["^"], ["&"], ["==", "!="], ["<=", ">=", "<", ">"], ["<<", ">>"],
   ["+", "-"], ["*", "/", "%"]]

/-- The operators that assign, longer ones first. -/
def assigning : List String :=
  ["<<=", ">>=", "+=", "-=", "*=", "/=", "%=", "&=", "^=", "|=", "="]

/-- The value of an operator. -/
def apply (op : String) (a b : Int) : Except Fault Int :=
  let bits (f : Nat → Nat → Nat) : Except Fault Int :=
    .ok (wrap (f (a % Nat.pow 2 64).toNat (b % Nat.pow 2 64).toNat))
  match op with
  | "||" => .ok (truth (a != 0 || b != 0))
  | "&&" => .ok (truth (a != 0 && b != 0))
  | "|" => bits (· ||| ·)
  | "^" => bits (· ^^^ ·)
  | "&" => bits (· &&& ·)
  | "==" => .ok (truth (a == b))
  | "!=" => .ok (truth (a != b))
  | "<=" => .ok (truth (a ≤ b))
  | ">=" => .ok (truth (b ≤ a))
  | "<" => .ok (truth (a < b))
  | ">" => .ok (truth (b < a))
  | "<<" => .ok (wrap (a * Nat.pow 2 (b % 64).toNat))
  | ">>" => .ok (a.fdiv (Nat.pow 2 (b % 64).toNat))
  | "+" => .ok (wrap (a + b))
  | "-" => .ok (wrap (a - b))
  | "*" => .ok (wrap (a * b))
  | "/" => if b == 0 then .error .divisionByZero else .ok (wrap (a.tdiv b))
  | _ => if b == 0 then .error .divisionByZero else .ok (wrap (a.tmod b))

/-- An operand counts on the right of an operator behind this value. -/
def counts (op : String) (a : Int) : Bool :=
  match op with
  | "||" => a == 0
  | "&&" => a != 0
  | _ => true

/-- Skips blanks. -/
def skip (cs : List Char) : List Char := cs.dropWhile Char.isWhitespace

/-- The operator of a level in front of a text. An operator is not the beginning of a longer one. -/
def operator? (level : List String) (cs : List Char) : Option (String × List Char) :=
  match level.find? fun op => op.toList.isPrefixOf cs with
  | none => none
  | some op =>
    let rest := cs.drop op.length
    let doubled := rest.head? == op.toList.head? && ["|", "&", "<", ">"].contains op
    let assigns := rest.head? == some '=' &&
      ["|", "^", "&", "<<", ">>", "+", "-", "*", "/", "%"].contains op
    if doubled || assigns then none else some (op, rest)

/-- The value of a variable, if it has one. -/
abbrev Names := List Char → Option (List Char)

/-- How far an expression is read: what is left, and what has been assigned, the last one first. -/
structure Point where
  rest : List Char
  changes : List (List Char × Int) := []

/-- The integer that an operand of digits or the value of a variable is. -/
def number (cs : List Char) : Option Int :=
  if cs.head? == some '\'' || cs.head? == some '"' then none
  else
    let trimmed := (cs.reverse.dropWhile Char.isWhitespace).reverse
    match Printf.integer trimmed with
    | (n, .whole) => some n
    | _ => none

/-- The integer that a name stands for. -/
def valueOf (names : Names) (p : Point) (name : List Char) : Except Fault Int :=
  match p.changes.lookup name with
  | some n => .ok n
  | none =>
    let text := (names name).getD []
    match if text.isEmpty then some 0 else number text with
    | some n => if n = wrap n then .ok n else .error (.illegalNumber text)
    | none => .error (.illegalNumber text)

/-- The name that is assigned to in front of a text, and how. -/
def assigned? (cs : List Char) : Option (List Char × String × List Char) :=
  let name := cs.takeWhile fun c => c.isAlphanum || c == '_'
  let rest := skip (cs.drop name.length)
  if name.isEmpty || (name.headD '0').isDigit then none
  else match assigning.find? fun op => op.toList.isPrefixOf rest with
    | some "=" => if (rest.drop 1).head? == some '=' then none else some (name, "=", rest.drop 1)
    | some op => some (name, op, rest.drop op.length)
    | none => none

mutual

/-- Evaluates an operand, in at most so many steps. -/
def primary (names : Names) (live : Bool) : Nat → Point → Except Fault (Int × Point)
  | 0, _ => .error .expectingPrimary
  | n + 1, p =>
    match skip p.rest with
    | '(' :: rest => do
      let (a, p) ← assignment names live n { p with rest }
      match skip p.rest with
      | ')' :: rest => return (a, { p with rest })
      | _ => .error .expectingParenthesis
    | '-' :: rest => do
      let (a, p) ← primary names live n { p with rest }
      return (wrap (-a), p)
    | '+' :: rest => primary names live n { p with rest }
    | '!' :: rest => do
      let (a, p) ← primary names live n { p with rest }
      return (truth (a == 0), p)
    | '~' :: rest => do
      let (a, p) ← primary names live n { p with rest }
      return (-a - 1, p)
    | cs =>
      let word := cs.takeWhile fun c => c.isAlphanum || c == '_'
      let p := { p with rest := cs.drop word.length }
      match word with
      | [] => .error .expectingPrimary
      | c :: _ =>
        if c.isDigit then
          match number word with
          | some a => .ok (max (-9223372036854775808) (min a 9223372036854775807), p)
          | none => .error .expectingEnd
        else if live then (valueOf names p word).map fun a => (a, p)
        else .ok (0, p)

/-- Evaluates the operators of some levels. -/
def level (names : Names) (live : Bool) :
    Nat → List (List String) → Point → Except Fault (Int × Point)
  | 0, _, _ => .error .expectingPrimary
  | n + 1, [], p => primary names live n p
  | n + 1, ops :: stronger, p => do
    let (a, p) ← level names live n stronger p
    chain names live n ops stronger a p

/-- Evaluates operators of one level one after the other. -/
def chain (names : Names) (live : Bool) :
    Nat → List String → List (List String) → Int → Point → Except Fault (Int × Point)
  | 0, _, _, a, p => .ok (a, p)
  | n + 1, ops, stronger, a, p =>
    match operator? ops (skip p.rest) with
    | none => .ok (a, p)
    | some (op, rest) => do
      let here := live && counts op a
      let (b, p) ← level names here n stronger { p with rest }
      let value ← if live then apply op a (if here then b else 0) else .ok 0
      chain names live n ops stronger value p

/-- Evaluates a choice between two values. -/
def choice (names : Names) (live : Bool) : Nat → Point → Except Fault (Int × Point)
  | 0, _ => .error .expectingPrimary
  | n + 1, p => do
    let (a, p) ← level names live n levels p
    match skip p.rest with
    | '?' :: rest => do
      let (yes, p) ← assignment names (live && a != 0) n { p with rest }
      match skip p.rest with
      | ':' :: rest => do
        let (no, p) ← choice names (live && a == 0) n { p with rest }
        return (if a != 0 then yes else no, p)
      | _ => .error .expectingColon
    | _ => return (a, p)

/-- Evaluates an assignment, or an expression that is none. -/
def assignment (names : Names) (live : Bool) : Nat → Point → Except Fault (Int × Point)
  | 0, _ => .error .expectingPrimary
  | n + 1, p =>
    match assigned? (skip p.rest) with
    | none => choice names live n p
    | some (name, op, rest) => do
      let (b, p) ← assignment names live n { p with rest }
      if live then
        let value ← if op == "=" then .ok b
          else do apply (op.dropEnd 1).toString (← valueOf names p name) b
        return (value, { p with changes := (name, value) :: p.changes })
      else return (b, p)

end

/-- The value of an expression, and what it assigns, the first assignment first. -/
def evaluate (names : Names) (cs : List Char) : Except Fault (Int × List (List Char × Int)) := do
  let (a, p) ← assignment names true (20 * cs.length + 40) ⟨cs, []⟩
  if (skip p.rest).isEmpty then return (a, p.changes.reverse) else .error .expectingEnd

end Stepwise.Host.Shell.Arithmetic
