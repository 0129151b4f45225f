import Stepwise.Registry
import Stepwise.Screen

/-!
# Checking scripts without running them

A script is checked for what can be told from its text: steps without a known action or a required
field, lists of steps that are none, and lines of a snippet that the screens refuse. Issues are
listed in the order of the text, each with the place it was found at.

* `Script.issues`: the issues of a script.
-/

namespace Stepwise

/-- Something wrong with a script. -/
structure Issue where
  path : String
  cause : Cause

/-- An issue as data. -/
def Issue.toValue (i : Issue) : Value :=
  .dict [("path", .str i.path), ("kind", .str i.cause.category.text),
    ("message", .str i.cause.message)]

/-- The fields in which an action may hold lists of steps. -/
def childFields : List String := ["if_true", "if_false", "loop_steps", "steps"]

/-- The issues of a step itself, apart from those in its lists of steps. -/
def ownIssues (r : Registry) (path : String) (s : Step) : List Issue :=
  match s.action? with
  | none => [⟨path, .missingAction⟩]
  | some name =>
    match r.find? name with
    | none => [⟨path, .unknownAction name⟩]
    | some d =>
      match d.missing? s with
      | some field => [⟨path, .missingField name field⟩]
      | none => []

/-- The fields of a step in which its action holds lists of steps. -/
def listFields (r : Registry) (s : Step) : List String :=
  match s.action?.bind r.find? with
  | none => []
  | some d => childFields.filter d.declares

/-- The place of an entry of a list. -/
def entryPath (path : String) (index : Nat) : String := path ++ "[" ++ toString index ++ "]"

/-- The issue of a list of steps that holds something else. -/
def listIssue (action field path : String) (v : Value) (index : Nat) : Issue :=
  let reason := match v with
    | .list _ => "entry " ++ toString index ++ " is not a step object"
    | _ => "expected a list of steps"
  ⟨path, .invalidField action field reason⟩

mutual

/-- The issues of a step, given as data. -/
def stepIssues (r : Registry) (path : String) : Value → List Issue
  | .dict fields =>
    let s : Step := ⟨fields⟩
    ownIssues r path s ++
      (listFields r s).flatMap fun field =>
        fieldIssues r (s.action?.getD "") field (path ++ "." ++ field) fields
  | _ => []

/-- The issues in a field of a step. -/
def fieldIssues (r : Registry) (action field path : String) : List (String × Value) → List Issue
  | [] => []
  | (name, v) :: rest =>
    if name = field then listIssues r action field path v
    else fieldIssues r action field path rest

/-- The issues of a list of steps: those of its steps, if all its entries are steps. -/
def listIssues (r : Registry) (action field path : String) : Value → List Issue
  | .list items =>
    match Step.ofItems 0 items with
    | .ok _ => itemIssues r path 0 items
    | .error index => [listIssue action field path (.list items) index]
  | v => [listIssue action field path v 0]

/-- The issues of steps, the first of which has this index. -/
def itemIssues (r : Registry) (path : String) (index : Nat) : List Value → List Issue
  | [] => []
  | v :: vs => stepIssues r (entryPath path index) v ++ itemIssues r path (index + 1) vs

end

namespace Snippet

/-- The statements of a snippet, each with the index of its line: lines that are neither blank nor
comments, without the blanks at their ends. -/
def statements (source : String) : List (Nat × String) :=
  ((Text.lines source).zipIdx.map fun p => (p.2, Text.trim p.1)).filter fun p =>
    p.2 != "" && !p.2.startsWith "#"

/-- Both screens, which every statement has to pass. -/
def screen (line : String) : Except Cause Unit := do
  Screen.expression line
  Screen.command line

/-- The place of a line. -/
def linePath (index : Nat) : String := "line " ++ toString (index + 1)

/-- The issues of a snippet. -/
def issues (source : String) : List Issue :=
  (statements source).filterMap fun (index, line) =>
    match screen line with
    | .ok () => none
    | .error cause => some ⟨linePath index, cause⟩

end Snippet

/-- The issues of a script. -/
def Script.issues (r : Registry) : Script → List Issue
  | steps ss => itemIssues r "steps" 0 (ss.map Step.toValue)
  | snippet source => Snippet.issues source

end Stepwise
