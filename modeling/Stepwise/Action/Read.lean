import Stepwise.Command.Spec
import Stepwise.Http.Request
import Stepwise.Registry
import Stepwise.Screen
import Stepwise.Trigger

/-!
# What actions ask for

The fields of a step, once placeholders are replaced, are read as what the action is to do. Reading
checks everything that can be checked without the state of the run.

* `Action.read`: what a step asks for, or why it is refused.
* `Action.check`: the check before an action is carried out. Printing and evaluating check their
  fields only when they are carried out.
-/

namespace Stepwise

/-- When a loop makes another pass. -/
inductive LoopMode where
  /-- As long as the condition holds. -/
  | holding (condition : Value)
  /-- So many times. -/
  | counted (count : Nat)

/-- What an action is to do. -/
inductive Action where
  | assign (name : String) (value : Value) (evaluated : Bool)
  | print (message : Value) (evaluated : Bool)
  | command (spec : Command.Spec) (shell : Bool) (timeout : Option Float)
  | evaluate (expression : String)
  | choose (condition : Option Value)
  | iterate (mode : LoopMode) (limit : Option Nat)
  | pause (seconds : Value) (evaluated : Bool)
  | record (trigger : Trigger) (message : String)
  | request (r : Http.Request)
  | merge (sources : List Value) (target : String)

namespace Action

/-- A refusal of a field. -/
def invalid {α : Type} (k : Kind) (field reason : String) : Except Cause α :=
  .error (.invalidField k.name field reason)

/-- The name is that of a variable. -/
def checkName (k : Kind) (field name : String) : Except Cause Unit :=
  if isIdentifier name then .ok ()
  else invalid k field ("'" ++ name ++ "' is not a valid variable name")

/-- The seconds to wait for. -/
def seconds (v : Value) : Except Cause Float :=
  match v.number? with
  | some x =>
    if x.isFinite && 0 ≤ x then .ok x
    else invalid .delay "seconds" ("expected a non-negative number, got " ++ v.display)
  | none => invalid .delay "seconds" ("expected a non-negative number, got " ++ v.display)

/-- A whole number in a field of a loop, not less than the least one. -/
def whole (field : String) (least : Nat) (x : Float) : Except Cause Nat :=
  if x.isFinite && Float.ofNat least ≤ x && Double.isWhole x then
    .ok (min (Double.toInt x).toNat (Nat.pow 2 64 - 1))
  else
    invalid .loop field
      ((if 0 < least then "expected a positive" else "expected a non-negative")
        ++ " whole number, got " ++ Double.write .prose x)

/-- The limit a loop sets for itself. -/
def loopLimit (s : Step) : Except Cause (Option Nat) :=
  match s.number? "max_iterations" with
  | some x => (whole "max_iterations" 1 x).map some
  | none => .ok none

/-- The mode of a loop: it has a condition or a count, and not both. -/
def loopMode (s : Step) : Except Cause LoopMode :=
  match s.get? "condition", s.number? "iterations" with
  | some _, some _ => invalid .loop "iterations" "cannot be combined with condition"
  | some condition, none => .ok (.holding condition)
  | none, some x => (whole "iterations" 0 x).map .counted
  | none, none => .error (.missingField Kind.loop.name "condition")

/-- A text in a field of a trigger that must not be blank. -/
def triggerText (s : Step) (field : String) : Except Cause String :=
  match s.text? field with
  | some text =>
    if Text.isAllBlank text then .error (.missingField Kind.trigger.name field) else .ok text
  | none => .error (.missingField Kind.trigger.name field)

/-- What sets a trigger off, and the message about it. -/
def triggerSetting (kind : TriggerKind) (s : Step) : Except Cause (Value × String) :=
  match kind with
  | .timeBased => do
    let time ← triggerText s "time"
    return (.str time, "Trigger time_based scheduled for " ++ time)
  | .interval =>
    match s.number? "interval" with
    | some x =>
      if x.isFinite && 0 < x then
        .ok (.float x, "Interval trigger set to " ++ Double.write .prose x ++ " seconds")
      else invalid .trigger "interval" "must be a positive number"
    | none => .error (.missingField Kind.trigger.name "interval")
  | .eventBased => do
    let event ← triggerText s "event"
    return (.str event, "Event trigger set for event: " ++ event)

/-- Reads a trigger. -/
def readTrigger (s : Step) : Except Cause Action := do
  let _ ← s.children "steps" Kind.trigger.name
  checkFields Kind.trigger.fields Kind.trigger.name s
  let type := (s.text? "type").getD ""
  match TriggerKind.ofText? type with
  | none => invalid .trigger "type" ("unsupported trigger type '" ++ type ++ "'")
  | some kind =>
    let (setting, message) ← triggerSetting kind s
    return .record ⟨kind, setting, s.given? "config", s.items "steps"⟩ message

/-- Reads a command. -/
def readCommand (s : Step) : Except Cause Action := do
  checkFields Kind.executeCommand.fields Kind.executeCommand.name s
  let some spec := Command.Spec.ofValue? ((s.get? "command").getD .null)
    | invalid .executeCommand "command" "expected a non-empty string or list"
  Screen.command spec.text
  let timeout := s.number? "timeout"
  if timeout.any fun t => !(t.isFinite && 0 < t) then
    invalid .executeCommand "timeout" "must be a positive number"
  return .command spec (s.flag "shell") timeout

/-- Reads what a step asks for. -/
def read (k : Kind) (s : Step) : Except Cause Action :=
  match k with
  | .setVar => do
    checkFields k.fields k.name s
    let name := (s.text? "name").getD ""
    checkName k "name" name
    return assign name ((s.get? "value").getD .null) (s.flag "eval")
  | .printMsg => do
    checkFields k.fields k.name s
    return print ((s.get? "message").getD .null) (s.flag "eval")
  | .executeCommand => readCommand s
  | .eval => do
    checkFields k.fields k.name s
    return evaluate ((s.text? "expression").getD "")
  | .condition => do
    let _ ← s.children "if_true" k.name
    let _ ← s.children "if_false" k.name
    return choose (s.get? "condition")
  | .loop => do
    let _ ← s.children "loop_steps" k.name
    checkFields k.fields k.name s
    let limit ← loopLimit s
    return iterate (← loopMode s) limit
  | .delay => do
    checkFields k.fields k.name s
    let v := (s.get? "seconds").getD .null
    let evaluated := s.flag "eval"
    if !evaluated then let _ ← seconds v
    return pause v evaluated
  | .trigger => readTrigger s
  | .httpRequest => (Http.Request.ofStep s).map request
  | .combineData => do
    checkFields k.fields k.name s
    let target := s.text? "output_var"
    if let some name := target then checkName k "output_var" name
    return merge (s.items "data_sources") (target.getD "combined_data")

/-- The check before an action is carried out. -/
def check (k : Kind) (s : Step) : Except Cause Unit :=
  match k with
  | .printMsg | .eval => .ok ()
  | k => (read k s).map fun _ => ()

end Action

/-- The check of a step before its action is carried out. -/
def Handler.check (h : Handler) (s : Step) : Except Cause Unit :=
  match h with
  | .builtin k => Action.check k s
  | .recorder => .ok ()

end Stepwise
