import Stepwise.Run.Snippet

/-!
# Executing scripts

A run executes at most one script. It claims itself, executes the steps or the lines of the script
one after the other, and ends completed, or with the error of the step that failed.

* `Engine.execute`: the process of a script.
-/

namespace Stepwise.Engine

/-- Executes the steps of a script, the first of which has this index. -/
def stepsFrom (e : Engine) (index : Nat) : List Step → Process (Except Outcome String)
  | [] => return .ok ("Script executed successfully with " ++ toString index ++ " steps")
  | s :: rest => do
    .ofAccess (.enter index)
    let outcome ← e.dispatch s
    if outcome.isError then return .error outcome
    stepsFrom e (index + 1) rest

/-- Executes the body of a script. -/
def body (e : Engine) : Script → Process (Except Outcome String)
  | .steps ss => e.stepsFrom 0 ss
  | .snippet source => Snippet.process e.config source

/-- The outcome of executing a run a second time. -/
def alreadyStarted (run : String) : Outcome :=
  let cause := Cause.runAlreadyStarted run
  { verdict := .error, message := cause.message, category := some cause.category }

/-- Ends a run with the result of its script. -/
def finish : Except Outcome String → Process Unit
  | .ok _ => .ofAccess (.announce .completed)
  | .error o => do
    .ofAccess (.blame o)
    .ofAccess (.announce .error)

/-- Executes a script on the run with this name: gives the message of success, or the outcome of
the step that failed. -/
def execute (e : Engine) (run : String) (script : Script) :
    Process (Except Outcome String) := do
  if ← .ofAccess .launch then return .error (alreadyStarted run)
  .ofAccess .start
  .ofAccess (.announce (.executing 0))
  let result ← e.body script
  finish result
  return result

end Stepwise.Engine
