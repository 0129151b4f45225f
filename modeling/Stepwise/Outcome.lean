import Stepwise.Cause
import Stepwise.Redact
import Stepwise.Value

/-!
# Outcomes

What came of one step: success or an error, a message, and, as far as they apply, the action, the
category and the diagnostic detail of an error, and the value an action produced.

* `Outcome.toValue`, `Outcome.ofValue?`: outcomes as data, where what is absent is left out.
-/

namespace Stepwise

/-- Whether something succeeded. -/
inductive Verdict where
  | success
  | error
deriving Repr, DecidableEq

namespace Verdict

/-- The name of a verdict in data. -/
def text : Verdict → String
  | success => "success"
  | error => "error"

/-- The verdict with this name. -/
def ofText? : String → Option Verdict
  | "success" => some success
  | "error" => some error
  | _ => none

end Verdict

/-- What came of a step. -/
structure Outcome where
  verdict : Verdict
  message : String
  /-- The action that was asked for, unless the step names none. -/
  action : Option String := none
  category : Option Category := none
  /-- The diagnostic form of the cause, cleared of secrets and cut. -/
  detail : Option String := none
  value : Option Value := none

namespace Outcome

/-- The success of an action. -/
def success (action message : String) (value : Option Value := none) : Outcome :=
  { verdict := .success, message, action := some action, value }

/-- A failure, with the diagnostic form of its cause cut to so many characters. -/
def failure (action : Option String) (limit : Nat) (cause : Cause) : Outcome :=
  { verdict := .error, message := cause.message, action, category := some cause.category,
    detail := some (Redact.cap cause.diagnostic limit) }

/-- The outcome is an error. -/
def isError (o : Outcome) : Bool := o.verdict == .error

/-- The names of the parts of an outcome in data, in their order. -/
def partNames : List String := ["result", "message", "action", "error_kind", "detail", "value"]

/-- An outcome as data. -/
def toValue (o : Outcome) : Value :=
  let optional (name : String) (v : Option Value) : List (String × Value) :=
    match v with
    | some v => [(name, v)]
    | none => []
  .dict
    ([("result", .str o.verdict.text), ("message", .str o.message)]
      ++ optional "action" (o.action.map .str)
      ++ optional "error_kind" (o.category.map fun c => .str c.text)
      ++ optional "detail" (o.detail.map .str)
      ++ optional "value" o.value)

/-- A part that may be absent, but has the right shape if it is present. -/
def part? {α : Type} (entries : Entries Value) (name : String) (read : Value → Option α) :
    Option (Option α) :=
  match Value.given? entries name with
  | none => some none
  | some v => (read v).map some

/-- Reads an outcome from data. -/
def ofValue? (v : Value) : Option Outcome := do
  let entries ← v.record? partNames
  return {
    verdict := ← ((← entries.get? "result").tag?).bind Verdict.ofText?
    message := ← (← entries.get? "message").text?
    action := ← part? entries "action" Value.text?
    category := ← part? entries "error_kind" fun v => v.tag?.bind Category.ofText?
    detail := ← part? entries "detail" Value.text?
    value := Value.given? entries "value" }

end Outcome

end Stepwise
