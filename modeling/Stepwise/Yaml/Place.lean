/-!
# Places in a text

A place is what is left of a text, together with its line and column. Line breaks come in several
forms, and all but the two separators of Unicode are read as a newline.

* `Place.next`, `Place.nextLine`: the place behind a character or a line break.
-/

namespace Stepwise.Yaml

/-- A space or a tab. -/
def isBlank (c : Char) : Bool := c == ' ' || c == '\t'

/-- A line break. -/
def isBreak (c : Char) : Bool :=
  c == '\n' || c == '\r' || c == '\u0085' || c == '\u2028' || c == '\u2029'

/-- A blank, a line break, or the end. -/
def endsWord : List Char → Bool
  | [] => true
  | c :: _ => isBlank c || isBreak c

/-- A character that a text may hold. -/
def isAllowed (c : Char) : Bool :=
  let n := c.toNat
  n == 9 || n == 10 || n == 13 || (0x20 ≤ n && n ≤ 0x7E) || n == 0x85
    || (0xA0 ≤ n && n ≤ 0xFFFD && n != 0xFEFF) || 0x10000 ≤ n

/-- A place in a text. -/
structure Place where
  rest : List Char
  line : Nat := 0
  column : Nat := 0
  /-- How many characters stand before it. -/
  index : Nat := 0

namespace Place

/-- The place behind the next character. -/
def next (p : Place) : Place :=
  match p.rest with
  | [] => p
  | _ :: rest => { p with rest, column := p.column + 1, index := p.index + 1 }

/-- The place so many characters further on the same line. -/
def skip (p : Place) (n : Nat) : Place :=
  { p with rest := p.rest.drop n, column := p.column + n, index := p.index + n }

/-- The line break here as it is read, and the place behind it. -/
def nextLine (p : Place) : List Char × Place :=
  match p.rest with
  | '\r' :: '\n' :: rest => (['\n'], ⟨rest, p.line + 1, 0, p.index + 2⟩)
  | c :: rest =>
    let text := if c == '\u2028' || c == '\u2029' then c else '\n'
    ([text], ⟨rest, p.line + 1, 0, p.index + 1⟩)
  | [] => ([], p)

/-- The next character is a line break. -/
def atBreak (p : Place) : Bool := p.rest.head?.any isBreak

/-- The next character is a blank. -/
def atBlank (p : Place) : Bool := p.rest.head?.any isBlank

/-- The next character is this one. -/
def at? (p : Place) (c : Char) : Bool := p.rest.head? == some c

/-- Nothing follows on this line. -/
def atLineEnd (p : Place) : Bool := p.rest.isEmpty || p.atBreak

/-- The place behind all characters that satisfy a condition. -/
def skipWhile (p : Place) (f : Char → Bool) : Place := p.skip (p.rest.takeWhile f).length

/-- A line that begins or ends a document. -/
def atMark (mark : String) (p : Place) : Bool :=
  p.column == 0 && mark.toList.isPrefixOf p.rest && endsWord (p.rest.drop 3)

/-- A line that begins or ends a document. -/
def atDocumentMark (p : Place) : Bool := p.atMark "---" || p.atMark "..."

end Place

end Stepwise.Yaml
