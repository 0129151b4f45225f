import Stepwise.Config
import Stepwise.Outcome
import Stepwise.Run.Output
import Stepwise.Script
import Stepwise.Status
import Stepwise.Store
import Stepwise.Trigger

/-!
# The state of a run

A run owns its variables, its output, its history and its triggers, and a status that only ever goes
forward. A process works on this state in single steps, the accesses; whatever happens between two
of them may come from somewhere else.

* `Access`, `Access.perform`: the steps in which a process works on its run.
-/

namespace Stepwise

namespace Run

/-- What is chosen when a run is created. -/
structure Options where
  /-- The run keeps a history of its steps. -/
  logsHistory : Bool := false

namespace Options

/-- Options as data. -/
def toValue (o : Options) : Value := .dict [("log_history", .bool o.logsHistory)]

/-- Reads options from data. -/
def ofValue? (v : Value) : Option Options := do
  match (← v.record? ["log_history"]).get? "log_history" with
  | none => some {}
  | some v => v.bool?.map fun b => ⟨b⟩

end Options

/-- A step in the history: the action and what came of it. -/
structure Entry where
  action : String
  outcome : Outcome

/-- An entry as data. -/
def Entry.toValue (e : Entry) : Value :=
  .dict [("action", .str e.action), ("outcome", e.outcome.toValue)]

end Run

/-- A run. -/
structure Run where
  name : String
  options : Run.Options := {}
  store : Store := []
  history : Array Run.Entry := #[]
  triggers : Array Trigger := #[]
  output : Output
  status : Status := .created
  /-- The run has been claimed for its one execution. -/
  launched : Bool := false
  /-- The execution has begun. -/
  started : Bool := false
  /-- The outcome that ended the run with an error. -/
  error : Option Outcome := none
  cancelled : Bool := false

namespace Run

/-- A new run. -/
def create (name : String) (options : Options) (config : Config) : Run where
  name
  options
  output := .empty config.outputCapacity config.streamCapacity

/-- Sets initial variables. -/
def seed (r : Run) (values : Entries Value) : Run :=
  { r with store := r.store.extend values }

/-- Sets a variable. -/
def assign (r : Run) (name : String) (v : Value) : Run :=
  { r with store := r.store.insert name v }

/-- Prints a line. -/
def print (r : Run) (line : String) : Run := { r with output := r.output.push line }

/-- Asks the run to stop. -/
def cancel (r : Run) : Run := { r with cancelled := true }

/-- Forgets the output. -/
def clearOutput (r : Run) : Run := { r with output := r.output.clear }

/-- Forgets the history. -/
def clearHistory (r : Run) : Run := { r with history := #[] }

/-- Appends to the history, if the run keeps one. -/
def log (r : Run) (e : Entry) : Run :=
  if r.options.logsHistory then { r with history := r.history.push e } else r

/-- Shows which step is being executed, unless the run has ended. -/
def enter (r : Run) (index : Nat) : Run :=
  if r.status.isTerminal then r else { r with status := .executing index }

/-! ## Accesses -/

/-- Where a process looks whether it has been cancelled. -/
inductive Checkpoint where
  /-- Before this step is carried out. -/
  | step (s : Step)
  /-- Before another pass of a loop. -/
  | pass
  /-- Before a line of a snippet. -/
  | line

/-- A single step in which a process works on its run. -/
inductive Access where
  /-- Claims the run, and asks whether it was claimed before. -/
  | launch
  /-- Notes that the execution has begun. -/
  | start
  /-- Shows a status. -/
  | announce (s : Status)
  /-- Shows which step is being executed, unless the run has ended. -/
  | enter (index : Nat)
  /-- Notes the outcome that ends the run with an error. -/
  | blame (o : Outcome)
  /-- Asks whether the run has been cancelled. -/
  | poll (point : Checkpoint)
  /-- Reads the variables. -/
  | read
  | assign (name : String) (v : Value)
  | print (line : String)
  | record (t : Trigger)
  | log (e : Entry)

/-- What an access gives. -/
@[reducible] def Access.Answer : Access → Type
  | launch | poll _ => Bool
  | read => Store
  | _ => Unit

/-- Carries out an access. -/
def Access.perform : (a : Access) → Run → a.Answer × Run
  | launch, r => (r.launched, { r with launched := true })
  | start, r => ((), { r with started := true })
  | announce s, r => ((), { r with status := s })
  | enter index, r => ((), r.enter index)
  | blame o, r => ((), { r with error := some o })
  | poll _, r => (r.cancelled, r)
  | read, r => (r.store, r)
  | assign name v, r => ((), r.assign name v)
  | print line, r => ((), r.print line)
  | record t, r => ((), { r with triggers := r.triggers.push t })
  | log e, r => ((), r.log e)

end Run

end Stepwise
