import Stepwise.Action.Kind

/-!
# The registry of actions

Actions by name, in the order of their registration. A name is registered once.

* `register`, `lookup`: adding an action, and finding it.
-/

namespace Stepwise

/-- What carries out an action: a built-in one, or a recorder that succeeds with the fields it was
handed. -/
inductive Handler where
  | builtin (kind : Action.Kind)
  | recorder
deriving DecidableEq

/-- What is known about an action. -/
structure Descriptor where
  name : String
  description : String
  required : List String := []
  optional : List String := []
  /-- The fields in which placeholders are left alone. -/
  raw : List String := []
  schema : Value := .null
  handler : Handler := .recorder

namespace Descriptor

/-- The action reads a field with this name. -/
def declares (d : Descriptor) (field : String) : Bool :=
  d.required.contains field || d.optional.contains field

/-- The first required field a step lacks. -/
def missing? (d : Descriptor) (s : Step) : Option String :=
  d.required.find? fun field => !s.contains field

/-- An action as it is described to others. -/
def toValue (d : Descriptor) : Value :=
  .dict
    [("name", .str d.name), ("description", .str d.description),
     ("required_fields", .list (d.required.map .str)),
     ("optional_fields", .list (d.optional.map .str)), ("schema", d.schema)]

/-- The names of the parts of a description, in their order. -/
def partNames : List String :=
  ["name", "description", "required_fields", "optional_fields", "schema"]

/-- Reads a description. -/
def ofValue? (v : Value) : Option Descriptor := do
  let entries ← v.record? partNames
  return {
    name := ← (← entries.get? "name").text?
    description := ← (← entries.get? "description").text?
    required := ← (← entries.get? "required_fields").texts?
    optional := ← (← entries.get? "optional_fields").texts?
    schema := ← entries.get? "schema" }

/-- The diagnostic form: name and fields, with texts quoted. -/
def diagnostic (d : Descriptor) : String :=
  let texts (ts : List String) := "[" ++ String.intercalate ", " (ts.map Text.quoted) ++ "]"
  "ActionDescriptor \x7b name: " ++ Text.quoted d.name ++ ", required_fields: " ++ texts d.required
    ++ ", optional_fields: " ++ texts d.optional ++ ", .. \x7d"

/-- The descriptor of a built-in action. -/
def ofKind (k : Action.Kind) : Descriptor where
  name := k.name
  description := k.description
  required := (k.fields.filter (·.required)).map (·.name)
  optional := (k.fields.filter (!·.required)).map (·.name)
  raw := k.raw
  schema := k.schema
  handler := .builtin k

end Descriptor

/-- Actions in the order of their registration. -/
structure Registry where
  actions : List Descriptor := []

namespace Registry

/-- The names of the actions. -/
def names (r : Registry) : List String := r.actions.map (·.name)

/-- The action with this name. -/
def find? (r : Registry) (name : String) : Option Descriptor :=
  r.actions.find? (·.name == name)

/-- The action with this name, which there has to be. -/
def lookup (r : Registry) (name : String) : Except Cause Descriptor :=
  match r.find? name with
  | some d => .ok d
  | none => .error (.unknownAction name)

/-- There is an action with this name. -/
def contains (r : Registry) (name : String) : Bool := (r.find? name).isSome

/-- Adds an action under a new name. -/
def register (r : Registry) (d : Descriptor) : Except Cause Registry :=
  if r.contains d.name then .error (.duplicateAction d.name) else .ok ⟨r.actions ++ [d]⟩

/-- The built-in actions. -/
def builtins : Registry := ⟨Action.Kind.all.map Descriptor.ofKind⟩

end Registry

end Stepwise
