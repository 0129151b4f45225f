import Stepwise.Double.Read
import Stepwise.Double.Written
import Stepwise.Json.Print
import Stepwise.Script

/-!
# Fields of actions

Every action names its fields with their shapes. Fields that stay text after placeholders were
replaced are read leniently: truths and numbers may be written as text. A step is refused at its
first field of the wrong shape, in the order it was written, and then for the first required field
it lacks.

* `Field.refusal?`: what is wrong with a value for a field.
* `checkFields`: refuses a step whose fields do not have their shapes.
-/

namespace Stepwise

/-- The shape of a field. -/
inductive Shape where
  | text
  /-- Any data. -/
  | data
  | list
  | dict
  /-- A truth, a number, or a text that names a truth. -/
  | flag
  /-- A number, or the text of one. -/
  | number
deriving Repr, DecidableEq

/-- A field of an action. -/
structure Field where
  name : String
  shape : Shape
  required : Bool
  description : String

/-- The truth a value stands for, if it stands for one. -/
def Value.flag? : Value → Option Bool
  | bool b => some b
  | str s =>
    match Text.asciiLower (Text.trim s) with
    | "true" | "1" | "yes" => some true
    | "false" | "0" | "no" | "" => some false
    | _ => none
  | int n => some (n != 0)
  | float x => some (x != 0)
  | _ => none

/-- The number a value stands for, if it stands for one. -/
def Value.number? : Value → Option Float
  | int n => some (Float.ofInt n)
  | float x => some x
  | str s => Double.read (Text.trim s)
  | _ => none

/-- A value in the words of a refusal. -/
def Value.inWords : Value → String
  | null => "null"
  | bool b => "boolean `" ++ (if b then "true" else "false") ++ "`"
  | int n => "integer `" ++ toString n ++ "`"
  | float x => "floating point `" ++ Double.write .refusal x ++ "`"
  | str s => "string " ++ Text.quoted s
  | list _ => "sequence"
  | dict _ => "map"

namespace Field

/-- A value of another type than the expected one. -/
def unexpected (v : Value) (expected : String) : Option String :=
  some ("invalid type: " ++ v.inWords ++ ", expected " ++ expected)

/-- What is wrong with a value for a field, if anything is. Nothing is as good as no field where
the field is optional. -/
def refusal? (f : Field) : Value → Option String
  | .null =>
    match f.shape with
    | .text => if f.required then unexpected .null "a string" else none
    | .list => if f.required then unexpected .null "a sequence" else none
    | .dict => if f.required then unexpected .null "a map" else none
    | .data | .flag | .number => none
  | v =>
    match f.shape, v with
    | .data, _ | .text, .str _ | .list, .list _ | .dict, .dict _ => none
    | .text, _ => unexpected v "a string"
    | .list, _ => unexpected v "a sequence"
    | .dict, _ => unexpected v "a map"
    | .flag, _ =>
      if v.flag?.isSome then none else some ("expected a boolean, got " ++ Json.compact v)
    | .number, _ =>
      if v.number?.isSome then none else some ("expected a number, got " ++ Json.compact v)

end Field

/-- What is wrong with the fields of a step, if anything is. -/
def fieldsRefusal? (fields : List Field) (s : Step) : Option String :=
  let wrong := s.fields.findSome? fun entry =>
    (fields.find? (·.name == entry.1)).bind fun f => f.refusal? entry.2
  let lacking := fields.findSome? fun f =>
    if f.required && !s.contains f.name then some ("missing field `" ++ f.name ++ "`") else none
  wrong <|> lacking

/-- Refuses a step whose fields do not have their shapes. -/
def checkFields (fields : List Field) (action : String) (s : Step) : Except Cause Unit :=
  match fieldsRefusal? fields s with
  | some reason => .error (.invalidField action "step" reason)
  | none => .ok ()

namespace Step

/-- The text in a field. -/
def text? (s : Step) (field : String) : Option String := (s.get? field).bind Value.text?

/-- The value in a field, where nothing counts as no value. -/
def given? (s : Step) (field : String) : Option Value := Value.given? s.fields field

/-- The truth in a field, and false where there is none. -/
def flag (s : Step) (field : String) (absent : Bool := false) : Bool :=
  ((s.given? field).bind Value.flag?).getD absent

/-- The number in a field. -/
def number? (s : Step) (field : String) : Option Float := (s.given? field).bind Value.number?

/-- The items of the list in a field. -/
def items (s : Step) (field : String) : List Value :=
  match s.get? field with
  | some (.list vs) => vs
  | _ => []

/-- The entries of the dictionary in a field. -/
def entries (s : Step) (field : String) : Entries Value :=
  ((s.get? field).bind Value.entries?).getD []

end Step

end Stepwise
