import Stepwise.Host.Decimal
import Stepwise.Host.Escape

/-!
# Formatted printing

A format is text with escapes and conversions. Every conversion takes the next argument, and the
format is used again as long as arguments are left.

* `Printf.print`: what is written for a format and arguments.
-/

namespace Stepwise.Host.Printf

/-- What is particular to a program. -/
structure Dialect where
  /-- It knows hexadecimal escapes, and skips letters for the size of a number. -/
  hex : Bool
  /-- It computes with so many bits. -/
  bits : Nat

/-- A width or precision: given, or taken from the arguments. -/
inductive Measure where
  | given (n : Nat)
  | argument

/-- A conversion of an argument. -/
structure Conversion where
  /-- How it is written, behind its percent sign. -/
  spelled : List Char
  flags : List Char
  width : Option Measure
  precision : Option Measure
  letter : Char

/-- A piece of a format. -/
inductive Piece where
  | bytes (bs : List UInt8)
  | conversion (c : Conversion)
  /-- The output ends here. -/
  | stop

/-- Reads a width or a precision. -/
def measure (cs : List Char) : Option Measure × List Char :=
  match cs with
  | '*' :: rest => (some .argument, rest)
  | _ =>
    match cs.takeWhile Char.isDigit with
    | [] => (none, cs)
    | digits => (some (.given ((String.ofList digits).toNat?.getD 0)), cs.dropWhile Char.isDigit)

/-- Reads a conversion behind its percent sign, in which letters for a size may be skipped. -/
def conversion? (sized : Bool) (cs : List Char) : Option (Conversion × List Char) :=
  let whole := cs
  let isFlag (c : Char) : Bool := "-+ #0".toList.contains c
  let flags := cs.takeWhile isFlag
  let (width, cs) := measure (cs.dropWhile isFlag)
  let (precision, cs) := match cs with
    | '.' :: rest =>
      let (p, rest) := measure rest
      (some (p.getD (.given 0)), rest)
    | _ => (none, cs)
  match if sized then cs.dropWhile "hlLjtz".toList.contains else cs with
  | letter :: rest =>
    some (⟨whole.take (whole.length - rest.length), flags, width, precision, letter⟩, rest)
  | [] => none

/-- The pieces of a format, read with at most so many steps. -/
def piecesFrom (hex : Bool) : Nat → List Char → List Piece
  | 0, _ | _, [] => []
  | n + 1, '%' :: '%' :: rest => .bytes [37] :: piecesFrom hex n rest
  | n + 1, '%' :: rest =>
    match conversion? hex rest with
    | some (c, rest) => .conversion c :: piecesFrom hex n rest
    | none => [.conversion ⟨rest, [], none, none, '\x00'⟩]
  | n + 1, '\\' :: rest =>
    match rest with
    | '"' :: rest => .bytes [34] :: piecesFrom hex n rest
    | _ =>
      match Escape.behindBackslash hex false rest with
      | (none, _) => [.stop]
      | (some bytes, k) => .bytes bytes :: piecesFrom hex n (rest.drop k)
  | n + 1, c :: rest => .bytes (Escape.encode [c]) :: piecesFrom hex n rest

/-- The pieces of a format. -/
def pieces (hex : Bool) (format : List Char) : List Piece :=
  piecesFrom hex (format.length + 1) format

/-- The number in front of a text in a base, and what follows it. -/
def digits (base : Nat) (cs : List Char) : Nat × List Char :=
  let front := cs.takeWhile fun c => Decimal.digitValue c < base
  (Decimal.value base front, cs.drop front.length)

/-- Whether an argument is a number. -/
inductive Reading where
  | whole
  | partly
  | none
  /-- It is a number, but too large. -/
  | beyond
deriving DecidableEq

/-- Reads an argument as an integer: decimal, octal behind a zero, hexadecimal behind `0x`, or the
code of a character behind a quote. -/
def integer (cs : List Char) : Int × Reading :=
  match cs with
  | [] => (0, .whole)
  | '\'' :: c :: _ | '"' :: c :: _ => (c.toNat, .whole)
  | _ =>
    let cs := cs.dropWhile Char.isWhitespace
    let (sign, cs) : Int × List Char := match cs with
      | '-' :: rest => (-1, rest)
      | '+' :: rest => (1, rest)
      | _ => (1, cs)
    let read (base : Nat) (cs : List Char) : Int × Reading :=
      let (n, rest) := digits base cs
      (sign * n, if rest.length == cs.length then .none else if rest.isEmpty then .whole else .partly)
    match cs with
    | '0' :: x :: rest => if x == 'x' || x == 'X' then read 16 rest else read 8 cs
    | _ => read 10 cs

/-- Reads an argument as a number that may have a fraction. -/
def decimal (cs : List Char) : Decimal.Number × Reading :=
  let whole (n : Nat) : Decimal.Number := ⟨false, .ratio n 1⟩
  match cs with
  | [] => (whole 0, .whole)
  | '\'' :: c :: _ | '"' :: c :: _ => (whole c.toNat, .whole)
  | _ =>
    match Decimal.read (cs.dropWhile Char.isWhitespace) with
    | some (n, []) => (n, .whole)
    | some (n, _) => (n, .partly)
    | none => (whole 0, .none)

/-- Fills a text up to a width. -/
def pad (flags : List Char) (width : Nat) (bs : List UInt8) : List UInt8 :=
  let fill := List.replicate (width - bs.length) (32 : UInt8)
  if flags.contains '-' then bs ++ fill else fill ++ bs

/-- Writes a natural number in a base. -/
def inBase (base : Nat) (upper : Bool) (n : Nat) : List Char :=
  (Nat.toDigits base n).map fun c => if upper then c.toUpper else c

/-- Writes digits with a sign, at least as many digits as the precision says, and zeros up to the
width if a flag says so. -/
def number (flags : List Char) (width : Nat) (precision : Option Nat) (sign : List Char)
    (ds : List Char) : List UInt8 :=
  let ds := if precision == some 0 && ds == ['0'] then [] else ds
  let least := match precision with
    | some p => p
    | none => if flags.contains '0' && !flags.contains '-' then width - sign.length else 0
  let ds := List.replicate (least - ds.length) '0' ++ ds
  pad flags width (Escape.encode (sign ++ ds))

/-- What has been written so far. -/
structure State where
  /-- The arguments left. -/
  arguments : List (List Char)
  out : List UInt8 := []
  /-- The arguments that are no numbers, and whether they are at least in part. -/
  faults : List (List Char × Reading) := []
  /-- A conversion there is not. -/
  unknown : Option Conversion := none
  stopped : Bool := false

/-- Takes the next argument, which is empty if there is none. -/
def State.next (s : State) : List Char × State :=
  match s.arguments with
  | [] => ([], s)
  | a :: rest => (a, { s with arguments := rest })

/-- Takes the next argument as an integer between bounds. -/
def State.nextInteger (s : State) (low high : Int) : Int × State :=
  let (a, s) := s.next
  let (n, reading) := integer a
  let reading := if reading = .whole && (n < low || high < n) then .beyond else reading
  (max low (min n high),
    if reading = .whole then s else { s with faults := s.faults ++ [(a, reading)] })

/-- Takes the next argument as an integer with a sign. -/
def State.nextSigned (s : State) : Int × State :=
  s.nextInteger (-9223372036854775808) 9223372036854775807

/-- Takes the next argument as an integer whose sign does not show. -/
def State.nextUnsigned (s : State) : Int × State :=
  s.nextInteger (-18446744073709551615) 18446744073709551615

/-- Takes the next argument as a number that may have a fraction. -/
def State.nextDecimal (s : State) : Decimal.Number × State :=
  let (a, s) := s.next
  let (n, reading) := decimal a
  (n, if reading = .whole then s else { s with faults := s.faults ++ [(a, reading)] })

/-- The size of a measure. -/
def State.size (s : State) : Option Measure → Option Int × State
  | none => (none, s)
  | some (.given n) => (some n, s)
  | some .argument =>
    let (n, s) := s.nextSigned
    (some n, s)

/-- Writes bytes. -/
def State.write (s : State) (bs : List UInt8) : State := { s with out := s.out ++ bs }

/-- The sign of a number that is written. -/
def signOf (flags : List Char) (negative : Bool) : List Char :=
  if negative then ['-'] else if flags.contains '+' then ['+']
  else if flags.contains ' ' then [' '] else []

/-- Writes an argument by a conversion. -/
def convert (d : Dialect) (c : Conversion) (s : State) : State :=
  let (width, s) := s.size c.width
  let (precision, s) := s.size c.precision
  let flags := if width.any (· < 0) then '-' :: c.flags else c.flags
  let width := (width.getD 0).natAbs
  let precision : Option Nat := precision.bind fun p => if p < 0 then none else some p.toNat
  let cut (bs : List UInt8) : List UInt8 := match precision with
    | some p => bs.take p
    | none => bs
  let unsigned (base : Nat) (upper : Bool) : State :=
    let (n, s) := s.nextUnsigned
    let ds := inBase base upper (n % Nat.pow 2 64).toNat
    let mark := if !flags.contains '#' || n == 0 then []
      else if base == 8 then ['0']
      else if base == 16 then (if upper then ['0', 'X'] else ['0', 'x']) else []
    s.write (number flags width precision mark ds)
  let fractional (upper : Bool) : State :=
    let (x, s) := s.nextDecimal
    let x := { x with magnitude := Decimal.rounded d.bits x.magnitude }
    let sign := signOf flags x.negative
    let cased (ds : List Char) : List Char := if upper then ds.map Char.toUpper else ds
    match Decimal.written c.letter.toLower (flags.contains '#') precision x.magnitude with
    | some ds =>
      let ds := if flags.contains '0' && !flags.contains '-' then
          Decimal.filled (width - sign.length) ds
        else ds
      s.write (pad flags width (Escape.encode (sign ++ cased ds)))
    | none => s.write (pad flags width (Escape.encode (sign ++ cased x.magnitude.name.toList)))
  match c.letter with
  | 's' =>
    let (a, s) := s.next
    s.write (pad flags width (cut (Escape.encode a)))
  | 'b' =>
    let (a, s) := s.next
    let (bs, whole) := Escape.decode d.hex true a
    { s.write (pad flags width (cut bs)) with stopped := !whole }
  | 'c' =>
    let (a, s) := s.next
    s.write (pad flags width (((Escape.encode a) ++ [0]).take 1))
  | 'd' | 'i' =>
    let (n, s) := s.nextSigned
    s.write (number flags width precision (signOf flags (n < 0)) (inBase 10 false n.natAbs))
  | 'u' => unsigned 10 false
  | 'o' => unsigned 8 false
  | 'x' => unsigned 16 false
  | 'X' => unsigned 16 true
  | 'e' | 'f' | 'g' => fractional false
  | 'E' | 'F' | 'G' => fractional true
  | _ => { s with unknown := some c, stopped := true }

/-- Writes the pieces of a format once. -/
def once (d : Dialect) (ps : List Piece) (s : State) : State :=
  ps.foldl
    (fun s p =>
      if s.stopped then s
      else match p with
        | .bytes bs => s.write bs
        | .stop => { s with stopped := true }
        | .conversion c => convert d c s)
    s

/-- Writes the pieces of a format again as long as they take arguments and some are left, at most
so many times. -/
def repeated (d : Dialect) (ps : List Piece) : Nat → State → State
  | 0, s => s
  | n + 1, s =>
    let left := s.arguments.length
    let s := once d ps s
    if s.stopped || s.arguments.isEmpty || s.arguments.length == left then s
    else repeated d ps n s

/-- What is written for a format and arguments. -/
def print (d : Dialect) (format : List Char) (arguments : List (List Char)) : State :=
  repeated d (pieces d.hex format) (arguments.length + 1) { arguments }

end Stepwise.Host.Printf
