import Stepwise.Value
import Stepwise.Double.Parts

/-!
# Reading values

Text is read by a machine with a stack of open lists and dictionaries. Each step consumes at least
one character, so as many steps as there are characters are enough. Containers nest at most 127
deep unless another limit is given.

A text that ends too early is told apart from one that goes wrong where something stands.
-/

namespace Stepwise.Json

/-- Why text or data cannot be read. -/
inductive Fault where
  /-- Something stands where it cannot. -/
  | malformed
  /-- The text ended too early. -/
  | truncated
  /-- Well-formed data of the wrong shape. -/
  | mismatched
deriving Repr, DecidableEq

/-! ## Numbers -/

/-- Appends digits to a number as long as it stays below 2^64, and returns the digits left over. -/
def absorb (n : Nat) : List Char → Nat × List Char
  | [] => (n, [])
  | c :: cs =>
    let m := n * 10 + (c.toNat - '0'.toNat)
    if m < Nat.pow 2 64 then absorb m cs else (n, c :: cs)

/-- The double `m · 10 ^ e`, where the double next to `m` is scaled by a power of ten in one
multiplication or division, or in two divisions when the power is out of range. Too large a value
is none. -/
def scaled (m : Nat) (e : Int) : Option Float :=
  let f := Float.ofNat m
  let power (k : Int) : Float := Float.ofScientific 1 false k.toNat
  if m = 0 then some 0
  else if 308 < e then none
  else if 0 ≤ e then
    let x := f * power e
    if x.isFinite then some x else none
  else if -308 ≤ e then some (f / power (-e))
  else if -616 ≤ e then some (f / power 308 / power (-e - 308))
  else some 0

/-- A double with its sign. -/
def signedFloat (negative : Bool) (m : Nat) (e : Int) : Except Fault Value :=
  match scaled m e with
  | some x => .ok (.float (if negative then -x else x))
  | none => .error .malformed

/-- Reads an exponent behind its mark, for a significand and the exponent it has already. -/
def readExponent (negative : Bool) (m : Nat) (e : Int) (cs : List Char) :
    Except Fault (Value × List Char) :=
  let (below, cs) := match cs with
    | '+' :: cs => (false, cs)
    | '-' :: cs => (true, cs)
    | cs => (false, cs)
  match cs.takeWhile Char.isDigit, cs.dropWhile Char.isDigit with
  | [], [] => .error .truncated
  | [], _ => .error .malformed
  | digits, rest =>
    let n := digits.foldl (fun n c => n * 10 + (c.toNat - '0'.toNat)) 0
    if n < Nat.pow 2 31 then
      (signedFloat negative m (if below then e - n else e + n)).map (·, rest)
    else if m ≠ 0 && !below then .error .malformed
    else .ok (.float (if negative then -0.0 else 0.0), rest)

/-- Reads a fraction behind its point. -/
def readFraction (negative : Bool) (m : Nat) (e : Int) (cs : List Char) :
    Except Fault (Value × List Char) :=
  match cs.takeWhile Char.isDigit, cs.dropWhile Char.isDigit with
  | [], [] => .error .truncated
  | [], _ => .error .malformed
  | digits, rest =>
    let (m, left) := absorb m digits
    let e := e - (digits.length - left.length : Nat)
    match rest with
    | 'e' :: rest | 'E' :: rest => readExponent negative m e rest
    | _ => (signedFloat negative m e).map (·, rest)

/-- An integer without fraction and exponent. A negative zero and what is out of range is a
double. -/
def wholeNumber (negative : Bool) (m : Nat) : Value :=
  if !negative then .int m
  else if m = 0 || Nat.pow 2 63 < m then .float (-(Float.ofNat m))
  else .int (-(m : Int))

/-- Reads a number behind its sign. -/
def readNumber (negative : Bool) (cs : List Char) : Except Fault (Value × List Char) :=
  match cs.takeWhile Char.isDigit, cs.dropWhile Char.isDigit with
  | [], [] => .error .truncated
  | [], _ => .error .malformed
  | '0' :: _ :: _, _ => .error .malformed
  | digits, rest =>
    let (m, left) := absorb 0 digits
    match rest with
    | '.' :: rest => readFraction negative m left.length rest
    | 'e' :: rest | 'E' :: rest => readExponent negative m left.length rest
    | _ =>
      if left.isEmpty then .ok (wholeNumber negative m, rest)
      else (signedFloat negative m left.length).map (·, rest)

/-! ## Strings -/

/-- The value of a hexadecimal digit. -/
def hexValue (c : Char) : Option Nat :=
  if c.isDigit then some (c.toNat - '0'.toNat)
  else if 'a' ≤ c && c ≤ 'f' then some (c.toNat - 'a'.toNat + 10)
  else if 'A' ≤ c && c ≤ 'F' then some (c.toNat - 'A'.toNat + 10)
  else none

/-- Reads four hexadecimal digits. -/
def readHex4 : List Char → Except Fault (Nat × List Char)
  | a :: b :: c :: d :: rest =>
    match hexValue a, hexValue b, hexValue c, hexValue d with
    | some a, some b, some c, some d => .ok (((a * 16 + b) * 16 + c) * 16 + d, rest)
    | _, _, _, _ => .error .malformed
  | short =>
    if 4 ≤ short.foldl (fun n c => n + c.utf8Size) 0 then .error .malformed else .error .truncated

/-- Reads the code behind `\u`. A leading surrogate must be followed by its trailing one. -/
def readCode (cs : List Char) : Except Fault (Char × List Char) := do
  let (n, rest) ← readHex4 cs
  if 0xDC00 ≤ n && n ≤ 0xDFFF then .error .malformed
  else if n < 0xD800 || 0xDBFF < n then .ok (Char.ofNat n, rest)
  else
    match rest with
    | [] => .error .truncated
    | '\\' :: [] => .error .truncated
    | '\\' :: 'u' :: rest =>
      let (m, rest) ← readHex4 rest
      if m < 0xDC00 || 0xDFFF < m then .error .malformed
      else .ok (Char.ofNat (0x10000 + (n - 0xD800) * 0x400 + (m - 0xDC00)), rest)
    | _ => .error .malformed

/-- Reads one character behind a backslash. -/
def readEscape : List Char → Except Fault (Char × List Char)
  | [] => .error .truncated
  | '"' :: cs => .ok ('"', cs)
  | '\\' :: cs => .ok ('\\', cs)
  | '/' :: cs => .ok ('/', cs)
  | 'b' :: cs => .ok ('\x08', cs)
  | 'f' :: cs => .ok ('\x0c', cs)
  | 'n' :: cs => .ok ('\n', cs)
  | 'r' :: cs => .ok ('\r', cs)
  | 't' :: cs => .ok ('\t', cs)
  | 'u' :: cs => readCode cs
  | _ => .error .malformed

/-- Reads a string behind its opening quote. -/
def readString : Nat → String → List Char → Except Fault (String × List Char)
  | 0, _, _ => .error .truncated
  | _, _, [] => .error .truncated
  | _, out, '"' :: cs => .ok (out, cs)
  | fuel + 1, out, '\\' :: cs =>
    match readEscape cs with
    | .ok (c, cs) => readString fuel (out.push c) cs
    | .error e => .error e
  | fuel + 1, out, c :: cs =>
    if c.toNat < 32 then .error .malformed else readString fuel (out.push c) cs

/-! ## Values -/

/-- Reads the rest of a word. -/
def readWord (v : Value) : List Char → List Char → Except Fault (Value × List Char)
  | [], cs => .ok (v, cs)
  | _ :: _, [] => .error .truncated
  | w :: ws, c :: cs => if w = c then readWord v ws cs else .error .malformed

/-- An open list or dictionary with what it holds so far, backwards. -/
inductive Frame where
  | list (done : List Value)
  | dict (done : List (String × Value)) (name : String)

/-- What is to be read next. -/
inductive Mode where
  /-- A value. -/
  | value
  /-- A value, or the end of the list just opened. -/
  | firstItem
  /-- The name of an entry. -/
  | name (done : List (String × Value))
  /-- The name of an entry, or the end of the dictionary just opened. -/
  | firstName
  /-- The colon behind a name. -/
  | colon (done : List (String × Value)) (name : String)
  /-- What follows a complete value. -/
  | after (v : Value)

/-- A reading in progress: what comes next, the open containers, and the text that is left. -/
structure Reader where
  mode : Mode
  stack : List Frame
  rest : List Char

/-- A blank between the parts of a value. -/
def isSpace (c : Char) : Bool := c == ' ' || c == '\n' || c == '\t' || c == '\r'

/-- A complete value, and the text behind it. -/
def Reader.complete (stack : List Frame) (result : Value × List Char) : Reader :=
  ⟨.after result.1, stack, result.2⟩

/-- Reads the beginning of a value. No more than `limit` containers may be open. -/
def Reader.begin (limit : Nat) (stack : List Frame) (cs : List Char) : Except Fault Reader :=
  match cs with
  | '[' :: cs => if limit ≤ stack.length then .error .malformed else .ok ⟨.firstItem, stack, cs⟩
  | '\x7b' :: cs => if limit ≤ stack.length then .error .malformed else .ok ⟨.firstName, stack, cs⟩
  | '"' :: cs =>
    (readString (cs.length + 1) "" cs).map fun (s, rest) => complete stack (.str s, rest)
  | 'n' :: cs => (readWord .null ['u', 'l', 'l'] cs).map (complete stack)
  | 't' :: cs => (readWord (.bool true) ['r', 'u', 'e'] cs).map (complete stack)
  | 'f' :: cs => (readWord (.bool false) ['a', 'l', 's', 'e'] cs).map (complete stack)
  | '-' :: cs => (readNumber true cs).map (complete stack)
  | c :: cs =>
    if c.isDigit then (readNumber false (c :: cs)).map (complete stack) else .error .malformed
  | [] => .error .truncated

/-- Reads a name behind its opening quote. -/
def Reader.named (done : List (String × Value)) (stack : List Frame) (cs : List Char) :
    Except Fault Reader :=
  (readString (cs.length + 1) "" cs).map fun (name, rest) => ⟨.colon done name, stack, rest⟩

/-- Reads what follows a value in the innermost container. -/
def Reader.next (v : Value) : List Frame → Char → List Char → Except Fault Reader
  | .list done :: stack, ',', cs => .ok ⟨.value, .list (v :: done) :: stack, cs⟩
  | .list done :: stack, ']', cs => .ok (complete stack (.list (v :: done).reverse, cs))
  | .dict done name :: stack, ',', cs => .ok ⟨.name ((name, v) :: done), stack, cs⟩
  | .dict done name :: stack, '\x7d', cs =>
    .ok (complete stack (.dict ((name, v) :: done).reverse, cs))
  | _, _, _ => .error .malformed

/-- Reads the next part of a value that is not complete. -/
def Reader.step (limit : Nat) (r : Reader) : Except Fault Reader :=
  match r.rest.dropWhile isSpace with
  | [] => .error .truncated
  | c :: cs =>
    match r.mode with
    | .value => begin limit r.stack (c :: cs)
    | .firstItem =>
      if c = ']' then .ok (complete r.stack (.list [], cs))
      else begin limit (.list [] :: r.stack) (c :: cs)
    | .firstName =>
      if c = '\x7d' then .ok (complete r.stack (.dict [], cs))
      else if c = '"' then named [] r.stack cs
      else .error .malformed
    | .name done => if c = '"' then named done r.stack cs else .error .malformed
    | .colon done name =>
      if c = ':' then .ok ⟨.value, .dict done name :: r.stack, cs⟩ else .error .malformed
    | .after v => next v r.stack c cs

/-- Reads on until the outermost value is complete. -/
def Reader.run (limit : Nat) : Nat → Reader → Except Fault (Value × List Char)
  | _, ⟨.after v, [], rest⟩ => .ok (v, rest)
  | 0, _ => .error .truncated
  | fuel + 1, r =>
    match r.step limit with
    | .ok r => r.run limit fuel
    | .error e => .error e

/-- How deep containers may nest. -/
def depthLimit : Nat := 127

/-- Reads one value and returns the text behind it. Entries keep the order and number in which
they stand. -/
def readPrefix (limit : Nat) (cs : List Char) : Except Fault (Value × List Char) :=
  Reader.run limit (cs.length + 1) ⟨.value, [], cs⟩

/-- Nothing but blanks may follow a value. -/
def finish (rest : List Char) : Except Fault Unit :=
  if rest.all isSpace then .ok () else .error .malformed

mutual

/-- A value in which no dictionary has a name twice: the last value counts, at the first place. -/
def settle : Value → Value
  | .list items => .list (settleItems items)
  | .dict entries => .dict (Entries.ofPairs (settleEntries entries))
  | v => v

/-- Settles every item. -/
def settleItems : List Value → List Value
  | [] => []
  | v :: vs => settle v :: settleItems vs

/-- Settles the value of every entry. -/
def settleEntries : List (String × Value) → List (String × Value)
  | [] => []
  | (name, v) :: rest => (name, settle v) :: settleEntries rest

end

/-- Reads a text that is one value. -/
def parse (text : String) : Except Fault Value := do
  let (v, rest) ← readPrefix depthLimit text.toList
  finish rest
  return settle v

end Stepwise.Json
