import Stepwise.Url.Fault

/-!
# Internet addresses in URLs

A host that ends in a number is an address of version 4, in one to four parts that may be decimal,
octal or hexadecimal. A host in brackets is an address of version 6: eight groups of up to four
hexadecimal digits, one run of zero groups left out, and perhaps the last two groups written as an
address of version 4.
-/

namespace Stepwise.Url.Address

/-- The value of digits in a base, if all of them are digits of it. -/
def digits? (base : Nat) (cs : List Char) : Option Nat :=
  cs.foldlM (fun n c =>
    let d :=
      if c.isDigit then c.toNat - 48
      else if 'a' ≤ c && c ≤ 'f' then c.toNat - 87
      else if 'A' ≤ c && c ≤ 'F' then c.toNat - 55
      else base
    if d < base then some (base * n + d) else none) 0

/-- A part of an address of version 4. -/
def part? : List Char → Option Nat
  | [] => none
  | '0' :: 'x' :: cs | '0' :: 'X' :: cs => digits? 16 cs
  | '0' :: c :: cs => digits? 8 (c :: cs)
  | cs => digits? 10 cs

/-- The parts between points, the empty one behind a last point left out. -/
def parts (cs : List Char) : List (List Char) :=
  let all := cs.splitOn '.'
  if all.getLast? == some [] then all.dropLast else all

/-- A host that can only be an address of version 4. -/
def endsInNumber (cs : List Char) : Bool :=
  match (parts cs).getLast? with
  | none => false
  | some last => (!last.isEmpty && last.all Char.isDigit) || (part? last).isSome

/-- Reads an address of version 4: the last part fills all that the others leave. -/
def ipv4? (cs : List Char) : Except Fault Nat :=
  match (parts cs).mapM part? with
  | none => .error .badIpv4
  | some numbers =>
    let leading := numbers.dropLast
    let last := numbers.getLast?.getD 0
    if 4 < numbers.length || Nat.pow 256 (4 - leading.length) ≤ last || leading.any (255 < ·) then
      .error .badIpv4
    else
      .ok (leading.foldl (fun n b => 256 * n + b) 0 * Nat.pow 256 (4 - leading.length) + last)

/-- An address of version 4 in four decimal parts. -/
def writeIpv4 (n : Nat) : String :=
  String.intercalate "." ([n / 16777216, n / 65536 % 256, n / 256 % 256, n % 256].map toString)

/-- A number up to 255 without leading zeros. -/
def octet? (cs : List Char) : Option Nat :=
  match cs with
  | [] => none
  | '0' :: _ :: _ => none
  | _ => if cs.all Char.isDigit && cs.length ≤ 3 then (digits? 10 cs).filter (· ≤ 255) else none

/-- A group of an address of version 6. -/
def group? (cs : List Char) : Option Nat :=
  if cs.isEmpty || 4 < cs.length then none else digits? 16 cs

/-- The groups that parts between colons stand for; the last part may be an address of
version 4. -/
def groups? : List (List Char) → Option (List Nat)
  | [] => some []
  | [last] =>
    if last.contains '.' then do
      match ← (last.splitOn '.').mapM octet? with
      | [a, b, c, d] => return [256 * a + b, 256 * c + d]
      | _ => none
    else (group? last).map ([·])
  | cs :: rest => do return (← group? cs) :: (← groups? rest)

/-- The groups of a text without the mark for groups left out. -/
def side? (cs : List Char) : Option (List Nat) :=
  if cs.isEmpty then some [] else groups? (cs.splitOn ':')

/-- What stands before and behind the first two colons in a row. -/
def atGap (before : List Char) : List Char → Option (List Char × List Char)
  | ':' :: ':' :: rest => some (before.reverse, rest)
  | c :: rest => atGap (c :: before) rest
  | [] => none

/-- Reads an address of version 6 as its eight groups. -/
def ipv6? (cs : List Char) : Except Fault (List Nat) :=
  let read : Option (List Nat) :=
    match atGap [] cs with
    | none => (side? cs).filter (·.length == 8)
    | some (before, behind) => do
      let left ← if before.contains '.' then none else side? before
      let right ← side? behind
      if 8 ≤ left.length + right.length then none
      else some (left ++ List.replicate (8 - left.length - right.length) 0 ++ right)
  match read with
  | some groups => .ok groups
  | none => .error .badIpv6

/-- The start and the length of the first longest run of zero groups, with the run that is under
way. -/
def longestZeros (best current : Nat × Nat) (index : Nat) : List Nat → Nat × Nat
  | [] => if best.2 < current.2 then current else best
  | g :: gs =>
    if g = 0 then
      let start := if current.2 = 0 then index else current.1
      longestZeros best (start, current.2 + 1) (index + 1) gs
    else
      longestZeros (if best.2 < current.2 then current else best) (0, 0) (index + 1) gs

/-- Groups between colons. -/
def writeGroups (groups : List Nat) : String :=
  String.intercalate ":" (groups.map fun g => String.ofList (Nat.toDigits 16 g))

/-- An address of version 6, the first longest run of two or more zero groups left out. -/
def writeIpv6 (groups : List Nat) : String :=
  let (start, length) := longestZeros (0, 0) (0, 0) 0 groups
  if length < 2 then writeGroups groups
  else writeGroups (groups.take start) ++ "::" ++ writeGroups (groups.drop (start + length))

end Stepwise.Url.Address
