import Stepwise.Cause
import Stepwise.Json.Parse
import Stepwise.Text.Blank

/-!
# Scripts

A script is a list of steps, each a dictionary that names an action and holds the fields of that
action, or a snippet of text with one statement a line. Lists of steps inside a step are data until
an action asks for them.

* `Step.children?`: the steps listed in a field, if every entry of the list is a step.
* `Script.ofValue?`, `Script.ofText`: scripts from data and from stored text.
-/

namespace Stepwise

/-- One instruction with the fields it was written with. -/
structure Step where
  fields : Entries Value
deriving Inhabited

namespace Step

/-- A dictionary is a step. -/
def ofValue? (v : Value) : Option Step := v.entries?.map Step.mk

/-- A step as data. -/
def toValue (s : Step) : Value := .dict s.fields

/-- The field with this name. -/
def get? (s : Step) (field : String) : Option Value := s.fields.get? field

/-- The step has a field with this name. -/
def contains (s : Step) (field : String) : Bool := s.fields.contains field

/-- The name of the action, unless it is blank. -/
def action? (s : Step) : Option String :=
  match s.get? "action" with
  | some (.str name) => if Text.isAllBlank name then none else some name
  | _ => none

/-- The steps that all entries are, or the index of the first that is none. -/
def ofItems (index : Nat) : List Value → Except Nat (List Step)
  | [] => .ok []
  | v :: vs =>
    match ofValue? v with
    | some s => (ofItems (index + 1) vs).map (s :: ·)
    | none => .error index

/-- The steps listed in a field, or the index of the first entry that is no step. -/
def children? (s : Step) (field : String) : Option (Except Nat (List Step)) :=
  match s.get? field with
  | none => none
  | some (.list items) => some (ofItems 0 items)
  | some _ => some (.error 0)

/-- The steps listed in a field that an action needs. -/
def children (s : Step) (field action : String) : Except Cause (List Step) :=
  match s.children? field with
  | some (.ok steps) => .ok steps
  | some (.error index) =>
    .error (.invalidField action field
      ("expected a list of step objects (entry " ++ toString index ++ " is not an object)"))
  | none => .error (.missingField action field)

end Step

/-- The body of a script. -/
inductive Script where
  | steps (steps : List Step)
  /-- Statements in a text, one a line. -/
  | snippet (source : String)
deriving Inhabited

namespace Script

/-- The script is a snippet. -/
def isSnippet : Script → Bool
  | snippet _ => true
  | steps _ => false

/-- Reads the steps of a script. -/
def stepsOf? : Value → Option (List Step)
  | .list items => (Step.ofItems 0 items).toOption
  | _ => none

/-- Reads a script from data: a dictionary with the steps, none where it says nothing about them,
or the text of a snippet. -/
def ofValue? : Value → Option Script
  | .str source => some (snippet source)
  | .dict entries =>
    match Entries.get? entries "steps" with
    | none => some (steps [])
    | some v => (stepsOf? v).map steps
  | _ => none

/-- The steps of a script are given twice. -/
def repeatsSteps : Value → Bool
  | .dict entries => 1 < (Entries.names entries).count "steps"
  | _ => false

/-- Reads a text that holds a script as data. -/
def ofJson (text : String) : Except Json.Fault Script := do
  let (v, rest) ← Json.readPrefix Json.depthLimit text.toList
  match if repeatsSteps v then none else ofValue? (Json.settle v) with
  | none => .error .mismatched
  | some script =>
    Json.finish rest
    return script

/-- Reads a stored script: a dictionary or a quoted text is data, and all other text a snippet. -/
def ofText (text : String) : Except Json.Fault Script :=
  match text.toList.dropWhile Text.isBlank with
  | '\x7b' :: _ | '"' :: _ => ofJson text
  | _ => .ok (snippet text)

end Script

end Stepwise
