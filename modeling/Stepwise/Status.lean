import Stepwise.Value

/-!
# The status of a run

A run is created, executes its steps one after the other, and ends completed or with an error. The
last two are terminal.
-/

namespace Stepwise

/-- Where a run stands. -/
inductive Status where
  | created
  /-- The step or line with this index is being executed. -/
  | executing (index : Nat)
  | completed
  | error
deriving Repr, DecidableEq, Inhabited

namespace Status

/-- The run has ended. -/
def isTerminal : Status → Bool
  | completed | error => true
  | _ => false

/-- A status in words; steps count from one. -/
def text : Status → String
  | created => "created"
  | executing index => "executing step " ++ toString (index + 1)
  | completed => "completed"
  | error => "error"

/-- The name of a status in data. -/
def tag : Status → String
  | created => "created"
  | executing _ => "executing"
  | completed => "completed"
  | error => "error"

/-- A status as data. -/
def toValue : Status → Value
  | executing index => .dict [("state", .str "executing"), ("step_index", .int index)]
  | s => .dict [("state", .str s.tag)]

/-- An index of a step. -/
def index? : Value → Option Nat
  | .int n => if 0 ≤ n && n < Nat.pow 2 64 then some n.toNat else none
  | _ => none

/-- Reads a status from data: a record, or a list of the name and what else belongs to it. -/
def ofValue? : Value → Option Status
  | .dict entries => do
    match ← (← Entries.get? entries "state").text? with
    | "created" => some created
    | "executing" => (index? (← Entries.get? entries "step_index")).map executing
    | "completed" => some completed
    | "error" => some error
    | _ => none
  | .list [.str "created"] => some created
  | .list [.str "executing", index] => (index? index).map executing
  | .list [.str "completed"] => some completed
  | .list [.str "error"] => some error
  | _ => none

end Status

end Stepwise
