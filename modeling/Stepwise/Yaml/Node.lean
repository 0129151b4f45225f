import Stepwise.Yaml.Token

/-!
# Nodes

A document is a tree of scalars, lists and maps, where a key may be any node. An alias stands for
the node at its anchor. A text holds exactly one document, and only tags that say how to read a
scalar are known.

* `Node.parse?`: the document in a text.
* `Node.value?`: a node as data, if all its keys are texts.
-/

namespace Stepwise.Yaml

/-- A node of a document. -/
inductive Node where
  | scalar (v : Value)
  | list (items : List Node)
  | map (entries : List (Node × Node))
deriving Inhabited

namespace Node

/-! ## Scalars -/

/-- What a plain scalar stands for, if it is in range. -/
def ofPlain? (text : String) : Option Node :=
  match Resolved.ofText text.toList with
  | .value v => some (scalar v)
  | .tooLarge => none

/-- A scalar that has to be of a kind. -/
def ofKind? (kind : Value → Bool) (text : String) : Option Node :=
  match Resolved.ofText text.toList with
  | .value v => if kind v then some (scalar v) else none
  | .tooLarge => none

/-- The node of a scalar. Without a tag, only a plain one is anything but a text. -/
def ofScalar? (text : String) (plain : Bool) : Option String → Option Node
  | none => if plain then ofPlain? text else some (scalar (.str text))
  | some "tag:yaml.org,2002:bool" => ofKind? (fun v => v matches .bool _) text
  | some "tag:yaml.org,2002:int" => ofKind? (fun v => v matches .int _) text
  | some "tag:yaml.org,2002:null" =>
    if text.isEmpty then none else ofKind? (fun v => v matches .null) text
  | some "tag:yaml.org,2002:float" =>
    (Resolved.double? text.toList).map fun x => scalar (Resolved.ofDouble x)
  | some tag => if tag.startsWith "!" then none else some (scalar (.str text))

/-! ## Documents -/

/-- What is left to read, and the nodes at anchors with their heights. -/
structure Reading where
  tokens : List Token
  anchors : List (String × Node × Nat) := []

/-- Reading that may fail. -/
abbrev Parse := StateT Reading Option

/-- The next token. -/
def peek : Parse (Option Token) := do return (← get).tokens.head?

/-- Skips the next token. -/
def skip : Parse Unit := modify fun r => { r with tokens := r.tokens.drop 1 }

/-- Skips the next token if it is this one, and tells whether it was. -/
def skipIf (t : Token) : Parse Bool := do
  if (← peek) == some t then
    skip
    return true
  else return false

/-- The next token is one of these. -/
def stands (ts : List Token) : Parse Bool := do return (← peek).any ts.contains

/-- The node that is left out. -/
def absent : Node × Nat := (scalar .null, 0)

/-- Reads an anchor and a tag, each of which may be missing, in at most so many steps. -/
def properties : Nat → Option String → Option String → Parse (Option String × Option String)
  | 0, a, t => return (a, t)
  | n + 1, a, t => do
    match ← peek with
    | some (.anchor name) =>
      if a.isSome then return (a, t)
      skip
      properties n (some name) t
    | some (.tag name) =>
      if t.isSome then return (a, t)
      skip
      properties n a (some name)
    | _ => return (a, t)

/-- Nodes with the height of the highest one. -/
def highest (ns : List (Node × Nat)) : Nat := ns.foldl (fun h n => max h n.2) 0

/-- A list of nodes. -/
def ofItems (ns : List (Node × Nat)) : Node × Nat := (list (ns.map (·.1)), highest ns + 1)

/-- A map of nodes. -/
def ofEntries (es : List ((Node × Nat) × (Node × Nat))) : Node × Nat :=
  (map (es.map fun e => (e.1.1, e.2.1)),
    max (highest (es.map (·.1))) (highest (es.map (·.2))) + 1)

/-- A node of which there is nothing but an anchor or a tag. -/
def parseAbsent (anchor tag : Option String) : Parse (Node × Nat) := do
  if anchor.isNone && tag.isNone then failure
  match ofScalar? "" true tag with
  | some node => return (node, 0)
  | none => failure

mutual

/-- Reads a node, perhaps one opened by indentation, or a list of dashes that are not indented. -/
def parseNode : Nat → Bool → Bool → Parse (Node × Nat)
  | 0, _, _ => failure
  | n + 1, block, dashes => do
    if let some (.alias name) := ← peek then
      skip
      match (← get).anchors.lookup name with
      | some node => return node
      | none => failure
    let (anchor, tag) ← properties 2 none none
    let known := tag.all fun t => !t.startsWith "!"
    let node ← match ← peek with
      | some (.scalar text plain) => do
        skip
        match ofScalar? text plain tag with
        | some node => pure (node, 0)
        | none => failure
      | some .flowSequence => do
        skip
        if known then pure (ofItems (← parseFlowItems n true)) else failure
      | some .flowMapping => do
        skip
        if known then pure (ofEntries (← parseFlowEntries n true)) else failure
      | some .blockSequence => do
        if !block || !known then failure
        skip
        let items ← parseItems n [.item, .blockEnd]
        if !(← skipIf .blockEnd) then failure
        pure (ofItems items)
      | some .blockMapping => do
        if !block || !known then failure
        skip
        pure (ofEntries (← parseEntries n))
      | some .item =>
        if dashes then
          if known then pure (ofItems (← parseItems n [.item, .key, .value, .blockEnd])) else failure
        else parseAbsent anchor tag
      | _ => parseAbsent anchor tag
    if let some name := anchor then
      modify fun r => { r with anchors := (name, node) :: r.anchors }
    return node

/-- Reads a node unless one of these tokens follows. -/
def parseUnless : Nat → List Token → Bool → Bool → Parse (Node × Nat)
  | 0, _, _, _ => failure
  | n + 1, ts, block, dashes => do
    if ← stands ts then return absent
    parseNode n block dashes

/-- Reads items behind dashes. Nothing stands between a dash and one of these tokens. -/
def parseItems : Nat → List Token → Parse (List (Node × Nat))
  | 0, _ => failure
  | n + 1, ts => do
    if ← skipIf .item then
      let node ← parseUnless n ts true false
      return node :: (← parseItems n ts)
    else return []

/-- Reads the entries of a map opened by indentation, to its end. -/
def parseEntries : Nat → Parse (List ((Node × Nat) × (Node × Nat)))
  | 0 => failure
  | n + 1 => do
    if ← skipIf .blockEnd then return []
    if !(← skipIf .key) then failure
    let key ← parseUnless n [.key, .value, .blockEnd] true true
    let value ←
      if ← skipIf .value then parseUnless n [.key, .value, .blockEnd] true true
      else pure absent
    return (key, value) :: (← parseEntries n)

/-- Reads the items of a list in brackets, to its end. -/
def parseFlowItems : Nat → Bool → Parse (List (Node × Nat))
  | 0, _ => failure
  | n + 1, first => do
    if ← skipIf .flowSequenceEnd then return []
    if !first then
      if !(← skipIf .comma) then failure
      if ← skipIf .flowSequenceEnd then return []
    let node ←
      if ← skipIf .key then
        let key ← parseUnless n [.value, .comma, .flowSequenceEnd] false false
        let value ←
          if ← skipIf .value then parseUnless n [.comma, .flowSequenceEnd] false false
          else pure absent
        pure (ofEntries [(key, value)])
      else parseNode n false false
    return node :: (← parseFlowItems n false)

/-- Reads the entries of a map in braces, to its end. -/
def parseFlowEntries : Nat → Bool → Parse (List ((Node × Nat) × (Node × Nat)))
  | 0, _ => failure
  | n + 1, first => do
    if ← skipIf .flowMappingEnd then return []
    if !first then
      if !(← skipIf .comma) then failure
      if ← skipIf .flowMappingEnd then return []
    if ← skipIf .key then
      let key ← parseUnless n [.value, .comma, .flowMappingEnd] false false
      let value ←
        if ← skipIf .value then parseUnless n [.comma, .flowMappingEnd] false false
        else pure absent
      return (key, value) :: (← parseFlowEntries n false)
    else
      let key ← parseNode n false false
      return (key, absent) :: (← parseFlowEntries n false)

end

/-- How many collections may stand inside each other. -/
def heightLimit : Nat := 128

/-- Reads the only document. -/
def parseDocument (steps : Nat) : Parse Node := do
  let directives := (← get).tokens.takeWhile (· == .directive)
  modify fun r => { r with tokens := r.tokens.drop directives.length }
  let explicit ← skipIf .documentStart
  if !explicit && !directives.isEmpty then failure
  let (node, height) ←
    if explicit then
      let atEnd ← stands [.directive, .documentStart, .documentEnd]
      if atEnd || (← peek).isNone then pure absent else parseNode steps true false
    else parseNode steps true false
  if (← get).tokens.any (· != .documentEnd) || heightLimit < height then failure
  return node

/-- The document in a text, if there is exactly one. -/
def parse? (text : String) : Option Node := do
  let tokens ← Scanner.scan? text
  ((parseDocument (8 * tokens.length + 8)).run { tokens }).map (·.1)

/-! ## Documents as data -/

/-- A text. -/
def text? : Node → Option String
  | scalar (.str s) => some s
  | _ => none

mutual

/-- A node as data, if all its keys are texts. Of entries with the same key the last one counts. -/
def value? : Node → Option Value
  | scalar v => some v
  | list items => (values? items).map .list
  | map entries => (entries? entries).map fun es => .dict (Entries.extend [] es)

/-- Nodes as data. -/
def values? : List Node → Option (List Value)
  | [] => some []
  | n :: ns => do return (← value? n) :: (← values? ns)

/-- Entries as data. -/
def entries? : List (Node × Node) → Option (List (String × Value))
  | [] => some []
  | (k, n) :: es => do return (← text? k, ← value? n) :: (← entries? es)

end

end Node

end Stepwise.Yaml
