import Stepwise.Text.Utf8

/-!
# Glyphs

What words become before they are cut into fields: characters that know whether they were quoted,
written without quotes, or inserted without quotes. Only inserted characters separate fields; only
quoted ones have no meaning in a pattern.

* `Glyph.fields`: the fields of a word.
* `Glyph.fits`: a text matches the pattern that glyphs write.
* `Glyph.trim`: a text without what matches the pattern at its end or in front.
-/

namespace Stepwise.Host.Shell

/-- Where a character of a word comes from. -/
inductive Origin where
  | quoted
  | written
  | inserted
deriving DecidableEq

/-- What a piece of a word becomes. -/
inductive Glyph where
  | char (c : Char) (origin : Origin)
  /-- There is a field here, even if it stays empty. -/
  | mark
  /-- A field ends here. It counts if it is empty, or does not. -/
  | cut (counts : Bool)

namespace Glyph

/-- A text that stands for something else. -/
def ofText (cs : List Char) (quoted : Bool) : List Glyph :=
  if quoted then mark :: cs.map (char · .quoted) else cs.map (char · .inserted)

/-- The characters of glyphs. -/
def text (gs : List Glyph) : List Char :=
  gs.filterMap fun
    | char c _ => some c
    | _ => none

/-- Characters that were written between braces count as inserted. -/
def asInserted (gs : List Glyph) : List Glyph :=
  gs.map fun
    | char c .written => char c .inserted
    | g => g

/-! ## Fields -/

/-- A blank among separators. -/
def isBlank (c : Char) : Bool := c == ' ' || c == '\t' || c == '\n'

/-- The fields of glyphs, of which the first is begun already or not. A blank may have ended a
field, which takes one other separator with it. -/
def fieldsFrom (separators : List Char) :
    Option (List Char) → Bool → List Glyph → List (List Char)
  | field, _, [] => (field.map List.reverse).toList
  | field, _, mark :: gs => fieldsFrom separators (some (field.getD [])) false gs
  | field, _, cut counts :: gs =>
    let here := if counts then [(field.getD []).reverse] else (field.map List.reverse).toList
    here ++ fieldsFrom separators (if counts then some [] else none) false gs
  | field, blank, char c origin :: gs =>
    if origin = .inserted && separators.contains c then
      if isBlank c then
        (field.map List.reverse).toList ++
          fieldsFrom separators none (blank || field.isSome) gs
      else
        let here := if blank then (field.map List.reverse).toList
          else [(field.getD []).reverse]
        here ++ fieldsFrom separators none false gs
    else fieldsFrom separators (some (c :: field.getD [])) false gs

/-- The fields of glyphs. -/
def fields (separators : List Char) (gs : List Glyph) : List (List Char) :=
  fieldsFrom separators none false gs

/-! ## Patterns -/

/-- What stands in a set of a pattern. -/
inductive Member where
  | range (low high : UInt8)
  | named (name : List UInt8)

/-- A part of a pattern. -/
inductive Part where
  | exactly (b : UInt8)
  | any
  | many
  | oneOf (others : Bool) (members : List Member)

/-- A byte belongs to a class with a name. -/
def inClass (name : List UInt8) (b : UInt8) : Bool :=
  let c := Char.ofNat b.toNat
  match Utf8.decode name with
  | "alpha" => c.isAlpha
  | "digit" => c.isDigit
  | "alnum" => c.isAlphanum
  | "upper" => c.isUpper
  | "lower" => c.isLower
  | "space" => c == ' ' || (9 ≤ b && b ≤ 13)
  | "blank" => c == ' ' || c == '\t'
  | "punct" => 33 ≤ b && b ≤ 126 && !c.isAlphanum
  | "print" => 32 ≤ b && b ≤ 126
  | "graph" => 33 ≤ b && b ≤ 126
  | "cntrl" => b < 32 || b == 127
  | "xdigit" => c.isDigit || ('a' ≤ c.toLower && c.toLower ≤ 'f')
  | _ => false

/-- A byte is what stands in a set. -/
def Member.contains (b : UInt8) : Member → Bool
  | .range low high => low ≤ b && b ≤ high
  | .named name => inClass name b

/-- The bytes of a pattern, each with whether it may have a meaning. -/
def marked (gs : List Glyph) : List (UInt8 × Bool) :=
  gs.flatMap fun
    | char c origin => (Utf8.encode (String.singleton c)).map fun b => (b, decide (origin ≠ .quoted))
    | _ => []

/-- Reads the set behind a bracket up to the bracket that closes it, in at most so many steps. -/
def members? : Nat → Bool → List (UInt8 × Bool) → Option (List Member × List (UInt8 × Bool))
  | 0, _, _ | _, _, [] => none
  | n + 1, first, (b, special) :: rest =>
    if b == 93 && special && !first then some ([], rest)
    else
      let more (m : Member) (rest : List (UInt8 × Bool)) :
          Option (List Member × List (UInt8 × Bool)) :=
        (members? n false rest).map fun (ms, rest) => (m :: ms, rest)
      match b == 91 && special, rest with
      | true, (58, _) :: inside =>
        let name := inside.takeWhile fun p => p.1 != 58
        match inside.drop name.length with
        | (58, _) :: (93, _) :: rest => more (.named (name.map (·.1))) rest
        | _ => more (.range b b) rest
      | _, (45, true) :: (high, special) :: behind =>
        if high == 93 && special then more (.range b b) rest else more (.range b high) behind
      | _, _ => more (.range b b) rest

/-- Reads a pattern in at most so many steps. -/
def partsFrom : Nat → List (UInt8 × Bool) → List Part
  | 0, _ | _, [] => []
  | n + 1, (b, special) :: rest =>
    if !special then .exactly b :: partsFrom n rest
    else if b == 42 then .many :: partsFrom n rest
    else if b == 63 then .any :: partsFrom n rest
    else if b == 91 then
      let (others, inside) : Bool × List (UInt8 × Bool) := match rest with
        | (33, true) :: inside | (94, true) :: inside => (true, inside)
        | _ => (false, rest)
      match members? (inside.length + 1) true inside with
      | some (ms, rest) => .oneOf others ms :: partsFrom n rest
      | none => .exactly b :: partsFrom n rest
    else .exactly b :: partsFrom n rest

/-- The parts of a pattern. -/
def parts (gs : List Glyph) : List Part := partsFrom (marked gs).length (marked gs)

/-- Bytes match the parts of a pattern. -/
def accepts : List Part → List UInt8 → Bool
  | [], bs => bs.isEmpty
  | .many :: ps, [] => accepts ps []
  | .many :: ps, b :: bs => accepts ps (b :: bs) || accepts (.many :: ps) bs
  | _ :: _, [] => false
  | .exactly a :: ps, b :: bs => a == b && accepts ps bs
  | .any :: ps, _ :: bs => accepts ps bs
  | .oneOf others ms :: ps, b :: bs => (ms.any (·.contains b) != others) && accepts ps bs
termination_by ps bs => ps.length + bs.length

/-- A text matches a pattern. -/
def fits (gs : List Glyph) (cs : List Char) : Bool :=
  accepts (parts gs) (Utf8.encode (String.ofList cs))

/-- A text without what matches a pattern at its end or in front, as much of it as possible or as
little. -/
def trim (gs : List Glyph) (atEnd greedy : Bool) (cs : List Char) : List Char :=
  let ps := parts gs
  let bs := Utf8.encode (String.ofList cs)
  let lengths := List.range (bs.length + 1)
  let removes (k : Nat) : Bool := accepts ps (if atEnd then bs.drop (bs.length - k) else bs.take k)
  match (if greedy then lengths.reverse else lengths).find? removes with
  | none => cs
  | some k => (Utf8.decode (if atEnd then bs.take (bs.length - k) else bs.drop k)).toList

end Glyph

end Stepwise.Host.Shell
