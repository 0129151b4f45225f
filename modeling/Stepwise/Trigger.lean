import Stepwise.Text.Blank
import Stepwise.Value

/-!
# Triggers

A trigger is an intent recorded for later: steps to run at a time, at intervals, or on an event.
Nothing is scheduled here.
-/

namespace Stepwise

/-- What sets a trigger off. -/
inductive TriggerKind where
  | timeBased
  | interval
  | eventBased
deriving Repr, DecidableEq

namespace TriggerKind

/-- The name of a kind in data. -/
def text : TriggerKind → String
  | timeBased => "time_based"
  | interval => "interval"
  | eventBased => "event_based"

/-- The kind with this name, which may stand between blanks. -/
def ofText? (name : String) : Option TriggerKind :=
  match Text.trim name with
  | "time_based" => some timeBased
  | "interval" => some interval
  | "event_based" => some eventBased
  | _ => none

end TriggerKind

/-- A recorded trigger. -/
structure Trigger where
  kind : TriggerKind
  /-- The time, the seconds between firings, or the event. -/
  setting : Value
  config : Option Value
  /-- The steps as they were written. -/
  steps : List Value

/-- A trigger as data. -/
def Trigger.toValue (t : Trigger) : Value :=
  .dict
    ([("trigger_type", .str t.kind.text), ("setting", t.setting)]
      ++ (t.config.map fun c => ("config", c)).toList
      ++ [("steps", .list t.steps)])

end Stepwise
