import Stepwise.Yaml.Scalar

/-!
# Tokens

A text is read as tokens. Outside brackets, indentation opens and closes collections. That something
was a key is seen only at the colon behind it, so the tokens that say so are put in front of it
afterwards.

* `Scanner.scan?`: the tokens of a text.
-/

namespace Stepwise.Yaml

/-- A token. -/
inductive Token where
  | documentStart
  | documentEnd
  | directive
  | blockSequence
  | blockMapping
  /-- The end of a collection that was opened by indentation. -/
  | blockEnd
  | flowSequence
  | flowSequenceEnd
  | flowMapping
  | flowMappingEnd
  /-- A dash before an item. -/
  | item
  /-- A comma. -/
  | comma
  | key
  | value
  | alias (name : String)
  | anchor (name : String)
  | tag (name : String)
  | scalar (text : String) (plain : Bool)
deriving Repr, DecidableEq, Inhabited

/-- Where a key may have begun. -/
structure Key where
  /-- How many tokens stand before it. -/
  number : Nat
  line : Nat
  column : Nat
  index : Nat
  /-- It has to be a key, by its indentation. -/
  required : Bool

/-- A text that is being read. -/
structure Scanner where
  place : Place
  tokens : Array Token := #[]
  /-- The columns of the open collections, the innermost one first. -/
  indents : List Nat := []
  /-- The possible keys, one for every open bracket and one outside of all, the innermost first. -/
  keys : List (Option Key) := [none]
  /-- A key may begin here. -/
  keyAllowed : Bool := true

namespace Scanner

/-- Reading that may fail. -/
abbrev Scan := StateT Scanner Option

/-- How many brackets are open. -/
def depth (s : Scanner) : Nat := s.keys.length - 1

/-- The place is inside brackets. -/
def inFlow (s : Scanner) : Bool := 0 < s.depth

/-- Appends a token. -/
def emit (t : Token) : Scan Unit := modify fun s => { s with tokens := s.tokens.push t }

/-- Goes to another place. -/
def goTo (place : Place) : Scan Unit := modify fun s => { s with place }

/-- Allows that a key begins here, or forbids it. -/
def allowKey (keyAllowed : Bool) : Scan Unit := modify fun s => { s with keyAllowed }

/-- Forgets the possible key, unless it has to be one. -/
def dropKey : Scan Unit := do
  let s ← get
  match s.keys with
  | some k :: keys => if k.required then failure else set { s with keys := none :: keys }
  | _ => return

/-- Notes that a key may begin here. -/
def noteKey : Scan Unit := do
  let s ← get
  if s.keyAllowed then
    dropKey
    let p := s.place
    let required := !s.inFlow && s.indents.head? == some p.column
    modify fun s => { s with keys := some ⟨s.tokens.size, p.line, p.column, p.index, required⟩
                                       :: s.keys.drop 1 }

/-- Forgets the keys that a colon can no longer belong to: those on earlier lines, and those that
began too long ago. -/
def dropStaleKeys : Scan Unit := do
  let s ← get
  let isStale (k : Key) : Bool := k.line < s.place.line || k.index + 1024 < s.place.index
  if s.keys.any fun k => k.any fun k => isStale k && k.required then failure
  set { s with keys := s.keys.map fun k : Option Key => k.filter (!isStale ·) }

/-- Opens a collection at a column that is further to the right than all others. The token that says
so is put where it belongs. -/
def openBlock (t : Token) (column number : Nat) : Scan Unit := do
  let s ← get
  if !s.inFlow && s.indents.all (· < column) then
    set { s with indents := column :: s.indents,
                 tokens := s.tokens.insertIdxIfInBounds number t }

/-- Closes the collections that are further to the right than a column; without one, all of them. -/
def closeBlocks (column : Option Nat) : Scan Unit := do
  let s ← get
  if !s.inFlow then
    let closed := s.indents.takeWhile fun i => column.all (· < i)
    set { s with indents := s.indents.drop closed.length,
                 tokens := closed.foldl (fun ts _ => ts.push .blockEnd) s.tokens }

/-! ## White space -/

/-- Skips blanks, comments and line breaks, in at most so many steps. -/
def skipSpaceFrom : Nat → Scan Unit
  | 0 => failure
  | n + 1 => do
    let s ← get
    let tabs := s.inFlow || !s.keyAllowed
    let p := s.place.skipWhile fun c => c == ' ' || (tabs && c == '\t')
    let p := if p.at? '#' then p.skipWhile (!isBreak ·) else p
    if p.atBreak then
      goTo p.nextLine.2
      if !s.inFlow then allowKey true
      skipSpaceFrom n
    else goTo p

/-- Skips blanks, comments and line breaks. -/
def skipSpace : Scan Unit := do skipSpaceFrom ((← get).place.rest.length + 1)

/-! ## Tokens -/

/-- Emits a token and skips its characters. -/
def take (t : Token) (length : Nat) : Scan Unit := do
  emit t
  goTo ((← get).place.skip length)

/-- The line that begins or ends a document. -/
def takeMark (t : Token) : Scan Unit := do
  closeBlocks none
  dropKey
  allowKey false
  take t 3

/-- A directive, which takes its whole line. -/
def takeDirective : Scan Unit := do
  closeBlocks none
  dropKey
  allowKey false
  let p := (← get).place
  if !(["%YAML ", "%TAG "].any (·.toList.isPrefixOf p.rest)) then failure
  emit .directive
  goTo (p.skipWhile (!isBreak ·))

/-- An opening bracket. -/
def takeOpening (t : Token) : Scan Unit := do
  noteKey
  modify fun s => { s with keys := none :: s.keys }
  allowKey true
  take t 1

/-- A closing bracket. -/
def takeClosing (t : Token) : Scan Unit := do
  dropKey
  modify fun s => { s with keys := if s.inFlow then s.keys.drop 1 else s.keys }
  allowKey false
  take t 1

/-- A comma. -/
def takeComma : Scan Unit := do
  dropKey
  allowKey true
  take .comma 1

/-- A collection begins here unless it is open already. It may only begin where a key may. -/
def beginHere (t : Token) : Scan Unit := do
  let s ← get
  if !s.inFlow then
    if !s.keyAllowed then failure
    openBlock t s.place.column s.tokens.size

/-- A dash. -/
def takeDash : Scan Unit := do
  beginHere .blockSequence
  dropKey
  allowKey true
  take .item 1

/-- A question mark. -/
def takeQuestion : Scan Unit := do
  beginHere .blockMapping
  dropKey
  allowKey (!(← get).inFlow)
  take .key 1

/-- A colon. What was a possible key is one. -/
def takeColon : Scan Unit := do
  let s ← get
  match s.keys with
  | some k :: keys =>
    set { s with keys := none :: keys, tokens := s.tokens.insertIdxIfInBounds k.number .key }
    openBlock .blockMapping k.column k.number
    allowKey false
  | _ =>
    beginHere .blockMapping
    allowKey (!s.inFlow)
  take .value 1

/-- A character of the name of an anchor. -/
def isAnchorChar (c : Char) : Bool := c.isAlphanum || c == '_' || c == '-'

/-- An anchor or an alias. -/
def takeAnchor (t : String → Token) : Scan Unit := do
  noteKey
  allowKey false
  let p := (← get).place.next
  let name := p.rest.takeWhile isAnchorChar
  let p := p.skip name.length
  if name.isEmpty || !(endsWord p.rest || p.rest.head?.any "?:,]\x7d%@`".toList.contains) then failure
  emit (t (String.ofList name))
  goTo p

/-- A character of a tag. -/
def isTagChar (c : Char) : Bool := c.isAlphanum || "-_;/?:@&=+$.%!~*'()#".toList.contains c

/-- A tag: between angle brackets, behind two exclamation marks one of the common tags, or behind
one a tag of its own. -/
def takeTag : Scan Unit := do
  noteKey
  allowKey false
  let p := (← get).place
  let (name, p) ← match p.rest with
    | '!' :: '<' :: rest =>
      let uri := rest.takeWhile fun c => isTagChar c || c == ',' || c == '[' || c == ']'
      let p := p.skip (2 + uri.length)
      if uri.isEmpty || !p.at? '>' then failure
      pure (uri, p.next)
    | '!' :: '!' :: rest =>
      let suffix := rest.takeWhile isTagChar
      if suffix.isEmpty then failure
      pure ("tag:yaml.org,2002:".toList ++ suffix, p.skip (2 + suffix.length))
    | _ =>
      let suffix := (p.rest.drop 1).takeWhile isTagChar
      if suffix.contains '!' then failure
      pure ('!' :: suffix, p.skip (1 + suffix.length))
  if !(endsWord p.rest || ((← get).inFlow && p.at? ',')) then failure
  emit (.tag (String.ofList name))
  goTo p

/-- A scalar in a block of lines. -/
def takeBlock (literal : Bool) : Scan Unit := do
  dropKey
  allowKey true
  let s ← get
  let (text, p) ← (block? literal s.indents.head? s.place : Option (List Char × Place))
  emit (.scalar (String.ofList text) false)
  goTo p

/-- A quoted scalar. -/
def takeQuoted (double : Bool) : Scan Unit := do
  noteKey
  allowKey false
  let (text, p) ← (quoted? double (← get).place : Option (List Char × Place))
  emit (.scalar (String.ofList text) false)
  goTo p

/-- A plain scalar. -/
def takePlain : Scan Unit := do
  noteKey
  allowKey false
  let s ← get
  let column := s.indents.head?.elim 0 (· + 1)
  let (text, broken, p) ← (plain? s.inFlow column s.place : Option (List Char × Bool × Place))
  emit (.scalar (String.ofList text) true)
  if broken then allowKey true
  goTo p

/-- The characters that no plain scalar begins with. -/
def indicators : List Char := "-?:,[]\x7b\x7d#&*!|>'\"%@`".toList

/-- A plain scalar can begin here. -/
def beginsPlain (flow : Bool) (c : Char) (rest : List Char) : Bool :=
  !indicators.contains c
    || (c == '-' && !rest.head?.any isBlank)
    || (!flow && (c == '?' || c == ':') && !endsWord rest)

/-- Reads the token that begins with a character. -/
def takeToken (c : Char) (rest : List Char) : Scan Unit := do
  let s ← get
  let p := s.place
  if p.column == 0 && c == '%' then takeDirective
  else if p.atMark "---" then takeMark .documentStart
  else if p.atMark "..." then takeMark .documentEnd
  else if c == '[' then takeOpening .flowSequence
  else if c == '\x7b' then takeOpening .flowMapping
  else if c == ']' then takeClosing .flowSequenceEnd
  else if c == '\x7d' then takeClosing .flowMappingEnd
  else if c == ',' then takeComma
  else if c == '-' && endsWord rest then takeDash
  else if c == '?' && (s.inFlow || endsWord rest) then takeQuestion
  else if c == ':' && (s.inFlow || endsWord rest) then takeColon
  else if c == '*' then takeAnchor .alias
  else if c == '&' then takeAnchor .anchor
  else if c == '!' then takeTag
  else if c == '|' && !s.inFlow then takeBlock true
  else if c == '>' && !s.inFlow then takeBlock false
  else if c == '\'' then takeQuoted false
  else if c == '"' then takeQuoted true
  else if beginsPlain s.inFlow c rest then takePlain
  else failure

/-- Reads tokens to the end, in at most so many steps. -/
def scanFrom : Nat → Scan Unit
  | 0 => failure
  | n + 1 => do
    skipSpace
    dropStaleKeys
    let s ← get
    match s.place.rest with
    | [] => do
      closeBlocks none
      dropKey
    | c :: rest => do
      closeBlocks (some s.place.column)
      takeToken c rest
      scanFrom n

/-- The tokens of a text, if it can be read. A mark of the byte order may stand in front. -/
def scan? (text : String) : Option (List Token) :=
  let cs := match text.toList with
    | '\uFEFF' :: cs => cs
    | cs => cs
  if cs.all isAllowed then
    ((scanFrom (cs.length + 1)).run { place := { rest := cs } }).map fun (_, s) => s.tokens.toList
  else none

end Scanner

end Stepwise.Yaml
