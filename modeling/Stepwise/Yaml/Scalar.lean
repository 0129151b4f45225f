import Stepwise.Double.Read
import Stepwise.Value
import Stepwise.Yaml.Place

/-!
# Scalars

A scalar is written plainly, between quotes, or as a block of lines. Between words, line breaks are
folded: one of them is a space, and of more the first is dropped. A plain scalar may stand for null,
a boolean or a number.

* `plain?`, `quoted?`, `block?`: reading a scalar.
* `Resolved.ofText`: what a plain scalar stands for.
-/

namespace Stepwise.Yaml

/-- The white space between two words. -/
structure Gap where
  blanks : List Char := []
  /-- The first line break. -/
  first : Option (List Char) := none
  /-- The other line breaks. -/
  others : List Char := []

namespace Gap

/-- There is a line break in it. -/
def isBroken (g : Gap) : Bool := g.first.isSome

/-- What a gap is read as. -/
def folded (g : Gap) : List Char :=
  match g.first with
  | none => g.blanks
  | some ['\n'] => if g.others.isEmpty then [' '] else g.others
  | some first => first ++ g.others

/-- Reads on in a gap. No tab may stand before a column at the beginning of a line. -/
def readFrom (column : Nat) : Nat → Gap → Place → Option (Gap × Place)
  | 0, _, _ => none
  | n + 1, g, p =>
    match p.rest with
    | [] => some (g, p)
    | c :: _ =>
      if isBlank c then
        if g.isBroken then
          if c == '\t' && p.column < column then none else readFrom column n g p.next
        else readFrom column n { g with blanks := g.blanks ++ [c] } p.next
      else if isBreak c then
        let (text, p) := p.nextLine
        match g.first with
        | none => readFrom column n { first := some text } p
        | some _ => readFrom column n { g with others := g.others ++ text } p
      else some (g, p)

/-- Reads a gap. -/
def read? (column : Nat) (p : Place) : Option (Gap × Place) :=
  readFrom column (p.rest.length + 1) {} p

end Gap

/-! ## Plain scalars -/

/-- A character that means something inside brackets. -/
def isFlowIndicator (c : Char) : Bool :=
  c == ',' || c == '[' || c == ']' || c == '\x7b' || c == '\x7d'

/-- The word in front of a text. Inside brackets no colon may stand before a character that means
something. -/
def word? (flow : Bool) : List Char → Option (List Char)
  | [] => some []
  | c :: cs =>
    if isBlank c || isBreak c then some []
    else if flow && c == ':' && cs.head?.any (fun d => d == '?' || isFlowIndicator d) then none
    else if (c == ':' && endsWord cs) || (flow && isFlowIndicator c) then some []
    else (word? flow cs).map (c :: ·)

/-- Reads on in a plain scalar behind a gap. Also tells whether the scalar ends on a later line than
its last word. -/
def plainFrom (flow : Bool) (column : Nat) :
    Nat → List Char → Gap → Place → Option (List Char × Bool × Place)
  | 0, _, _, _ => none
  | n + 1, text, g, p =>
    if p.atDocumentMark || p.at? '#' then some (text, g.isBroken, p)
    else do
      let w ← word? flow p.rest
      if w.isEmpty then return (text, g.isBroken, p)
      let text := text ++ g.folded ++ w
      let p := p.skip w.length
      if !(p.atBlank || p.atBreak) then return (text, false, p)
      let (g, p) ← Gap.read? column p
      if !flow && p.column < column then return (text, g.isBroken, p)
      plainFrom flow column n text g p

/-- Reads a plain scalar. Outside brackets its later lines do not begin before a column. -/
def plain? (flow : Bool) (column : Nat) (p : Place) : Option (List Char × Bool × Place) :=
  plainFrom flow column (p.rest.length + 1) [] {} p

/-! ## Quoted scalars -/

/-- The number that hexadecimal digits stand for. -/
def hexadecimal? (cs : List Char) : Option Nat :=
  cs.foldlM
    (fun n c =>
      if c.isDigit then some (16 * n + (c.toNat - '0'.toNat))
      else if 'a' ≤ c && c ≤ 'f' then some (16 * n + (c.toNat - 'a'.toNat + 10))
      else if 'A' ≤ c && c ≤ 'F' then some (16 * n + (c.toNat - 'A'.toNat + 10))
      else none)
    0

/-- The character that a letter behind a backslash stands for. -/
def letter? : Char → Option Char
  | '0' => some '\x00'
  | 'a' => some '\x07'
  | 'b' => some '\x08'
  | 't' | '\t' => some '\t'
  | 'n' => some '\n'
  | 'v' => some '\x0b'
  | 'f' => some '\x0c'
  | 'r' => some '\r'
  | 'e' => some '\x1b'
  | ' ' => some ' '
  | '"' => some '"'
  | '/' => some '/'
  | '\\' => some '\\'
  | 'N' => some '\u0085'
  | '_' => some '\u00a0'
  | 'L' => some '\u2028'
  | 'P' => some '\u2029'
  | _ => none

/-- The character that stands behind a backslash, and how many characters are read for it. -/
def escaped? : List Char → Option (Char × Nat)
  | [] => none
  | c :: cs =>
    let coded (n : Nat) : Option (Char × Nat) :=
      if (cs.take n).length < n then none
      else (hexadecimal? (cs.take n)).bind fun code =>
        if code.isValidChar then some (Char.ofNat code, n + 1) else none
    match c with
    | 'x' => coded 2
    | 'u' => coded 4
    | 'U' => coded 8
    | _ => (letter? c).map fun d => (d, 1)

/-- Reads on in a quoted scalar behind its quote; `broken` says that a line was broken by a
backslash just before. -/
def quotedFrom (double : Bool) : Nat → List Char → Place → Option (List Char × Place)
  | 0, _, _ => none
  | n + 1, text, p =>
    if p.atDocumentMark then none
    else
      match p.rest with
      | [] => none
      | '\'' :: '\'' :: _ =>
        if double then quotedFrom double n (text ++ ['\'']) p.next
        else quotedFrom double n (text ++ ['\'']) (p.skip 2)
      | c :: cs =>
        if c == (if double then '"' else '\'') then some (text, p.next)
        else if double && c == '\\' then
          if cs.head?.any isBreak then do
            let (_, p) := p.next.nextLine
            let (g, p) ← Gap.readFrom 0 (p.rest.length + 1) { first := some [] } p
            quotedFrom double n (text ++ g.folded) p
          else do
            let (d, k) ← escaped? cs
            quotedFrom double n (text ++ [d]) (p.skip (k + 1))
        else if isBlank c || isBreak c then do
          let (g, p) ← Gap.read? 0 p
          quotedFrom double n (text ++ g.folded) p
        else quotedFrom double n (text ++ [c]) p.next

/-- Reads a quoted scalar. -/
def quoted? (double : Bool) (p : Place) : Option (List Char × Place) :=
  quotedFrom double (p.rest.length + 1) [] p.next

/-! ## Block scalars -/

/-- What becomes of the line breaks at the end of a block. -/
inductive Chomping where
  | strip
  | clip
  | keep
deriving DecidableEq

/-- The indicators behind the one that begins a block: what becomes of the end, and how much further
the block is indented. -/
def indicators? (p : Place) : Option (Chomping × Option Nat × Place) :=
  let digit? (p : Place) : Option (Option Nat × Place) :=
    match p.rest with
    | c :: _ =>
      if c == '0' then none
      else if c.isDigit then some (some (c.toNat - '0'.toNat), p.next)
      else some (none, p)
    | [] => some (none, p)
  let chomping (p : Place) : Option Chomping × Place :=
    if p.at? '+' then (some .keep, p.next)
    else if p.at? '-' then (some .strip, p.next)
    else (none, p)
  match chomping p with
  | (some c, p) => (digit? p).map fun (d, p) => (c, d, p)
  | (none, p) => do
    let (d, p) ← digit? p
    if d.isNone then return (.clip, none, p)
    let (c, p) := chomping p
    return (c.getD .clip, d, p)

/-- The empty lines in front of a line of a block, which is indented so far, or so far as it turns
out. -/
def emptyLines (indent : Option Nat) :
    Nat → Nat → List Char → Place → Option (List Char × Nat × Place)
  | 0, _, _, _ => none
  | n + 1, widest, breaks, p =>
    let inside (p : Place) : Bool := indent.all (p.column < ·)
    let spaces := (p.rest.takeWhile (· == ' ')).length
    let p := p.skip (match indent with
      | none => spaces
      | some i => min spaces (i - p.column))
    let widest := max widest p.column
    if inside p && p.at? '\t' then none
    else if p.atBreak then
      let (text, p) := p.nextLine
      emptyLines indent n widest (breaks ++ text) p
    else some (breaks, widest, p)

/-- Reads on in a block whose lines are indented so far. `first` is the line break behind the last
line, `others` the empty lines behind it, and `blank` says that the last line began with a blank. -/
def blockFrom (literal : Bool) (indent : Nat) :
    Nat → List Char → List Char → List Char → Bool → Place →
      Option (List Char × List Char × List Char × Place)
  | 0, _, _, _, _, _ => none
  | n + 1, text, first, others, blank, p =>
    if p.column != indent || p.rest.isEmpty then some (text, first, others, p)
    else do
      let joined :=
        if !literal && first == ['\n'] && !blank && !p.atBlank then
          if others.isEmpty then [' '] else others
        else first ++ others
      let line := p.rest.takeWhile (!isBreak ·)
      let blank := p.atBlank
      let (first, p) := (p.skip line.length).nextLine
      let (others, _, p) ← emptyLines (some indent) (p.rest.length + 1) 0 [] p
      blockFrom literal indent n (text ++ joined ++ line) first others blank p

/-- Reads a block. Its lines are indented further than a column, if there is one. -/
def block? (literal : Bool) (column : Option Nat) (p : Place) : Option (List Char × Place) := do
  let (chomping, increment, p) ← indicators? p.next
  let p := p.skipWhile isBlank
  let p := if p.at? '#' then p.skipWhile (!isBreak ·) else p
  if !p.atLineEnd then none
  let (_, p) := p.nextLine
  let given := increment.map fun i => column.getD 0 + i
  let (breaks, widest, p) ← emptyLines given (p.rest.length + 1) 0 [] p
  let indent := given.getD (max (max widest (column.elim 0 (· + 1))) 1)
  let (text, first, others, p) ←
    blockFrom literal indent (p.rest.length + 1) [] [] breaks false p
  let ending := match chomping with
    | .strip => []
    | .clip => first
    | .keep => first ++ others
  return (text ++ ending, p)

/-! ## What a plain scalar stands for -/

/-- What a scalar stands for. -/
inductive Resolved where
  | value (v : Value)
  /-- An integer of more than 64 bits. -/
  | tooLarge

namespace Resolved

/-- A text written with leading zeros is no number. -/
def isPadded (cs : List Char) : Bool :=
  let ds := match cs with
    | '-' :: rest | '+' :: rest => rest
    | _ => cs
  1 < ds.length && ds.head? == some '0' && ds.all Char.isDigit

/-- The number that digits in a base stand for. -/
def inBase? (base : Nat) (cs : List Char) : Option Nat :=
  if cs.isEmpty then none
  else cs.foldlM
    (fun n c => (hexadecimal? [c]).bind fun d => if d < base then some (base * n + d) else none) 0

/-- The bases with a mark. -/
def bases : List (List Char × Nat) := [(['0', 'x'], 16), (['0', 'o'], 8), (['0', 'b'], 2)]

/-- The natural number in a base that its mark names. -/
def marked? (cs : List Char) : Option Nat :=
  bases.findSome? fun (mark, base) =>
    if mark.isPrefixOf cs then inBase? base (cs.drop mark.length) else none

/-- The integer of at most 128 bits that a plain scalar stands for. -/
def integer? (cs : List Char) : Option Int :=
  let natural? (cs : List Char) : Option Int :=
    ((marked? cs).orElse fun _ => if isPadded cs then none else inBase? 10 cs).map Int.ofNat
  let n? := match cs with
    | '+' :: rest => natural? rest
    | '-' :: rest => (natural? rest).map (- ·)
    | _ => natural? cs
  n?.filter fun n => -(Nat.pow 2 127 : Int) ≤ n && n < Nat.pow 2 128

/-- The double that a plain scalar stands for. -/
def double? (cs : List Char) : Option Float :=
  let unsigned := match cs with
    | '+' :: rest => rest
    | _ => cs
  if [".inf", ".Inf", ".INF"].contains (String.ofList unsigned) then some (1 / 0)
  else if ["-.inf", "-.Inf", "-.INF"].contains (String.ofList cs) then some (-1 / 0)
  else if [".nan", ".NaN", ".NAN"].contains (String.ofList cs) then some (0 / 0)
  else match cs with
    | '+' :: '+' :: _ | '+' :: '-' :: _ => none
    | _ => (Double.read (String.ofList unsigned)).filter Float.isFinite

/-- A double as data, where what is not finite is null. -/
def ofDouble (x : Float) : Value := if x.isFinite then .float x else .null

/-- What a plain scalar stands for. -/
def ofText (cs : List Char) : Resolved :=
  match String.ofList cs with
  | "" | "null" | "Null" | "NULL" | "~" => value .null
  | "true" | "True" | "TRUE" => value (.bool true)
  | "false" | "False" | "FALSE" => value (.bool false)
  | text =>
    match integer? cs with
    | some n => if -(Nat.pow 2 63 : Int) ≤ n && n < Nat.pow 2 64 then value (.int n) else tooLarge
    | none =>
      if isPadded cs then value (.str text)
      else match double? cs with
        | some x => value (ofDouble x)
        | none => value (.str text)

end Resolved

end Stepwise.Yaml
