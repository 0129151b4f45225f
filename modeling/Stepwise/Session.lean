import Stepwise.Run.Execute
import Stepwise.Run.Timeline

/-!
# Sessions

A session is one run together with the engine that works on it.
-/

namespace Stepwise

/-- A run and its engine. -/
structure Session where
  engine : Engine
  run : Run

namespace Session

/-- A session with a new run. -/
def create (engine : Engine) (name : String) (options : Run.Options) : Session :=
  ⟨engine, .create name options engine.config⟩

/-- Works on the run directly. -/
def update (s : Session) (f : Run → Run) : Session := { s with run := f s.run }

/-- Carries out a process. -/
def carryOut {α : Type} (s : Session) (p : Process α) (t : Timeline := {}) :
    α × Session × Timeline :=
  let (x, r, t) := p.run Timeline.world s.run t
  (x, { s with run := r }, t)

/-- Dispatches a step. -/
def dispatch (s : Session) (step : Step) : Outcome × Session :=
  let (o, s, _) := s.carryOut (s.engine.dispatch step)
  (o, s)

/-- Runs steps up to the first that fails, and counts them. -/
def runSteps (s : Session) (steps : List Step) : Except Outcome Nat × Session :=
  let (x, s, _) := s.carryOut (s.engine.runSteps steps)
  (x, s)

/-- Executes a script. -/
def execute (s : Session) (script : Script) : Except Outcome String × Session :=
  let (x, s, _) := s.carryOut (s.engine.execute s.run.name script)
  (x, s)

/-- Executes a script and cancels the run after a number of seconds. -/
def executeUntil (s : Session) (script : Script) (seconds : Float) :
    Except Outcome String × Session :=
  let (x, s, _) := s.carryOut (s.engine.execute s.run.name script)
    { cancelAt := some (Wait.ticks seconds) }
  (x, s.update Run.cancel)

/-- The time in which a listener hears what is printed from now on, within a span. -/
def listened (s : Session) (span : Span) : Timeline :=
  let listener : Listener := { position := s.run.output.subscribe, deadline := span.ticks }
  let t : Timeline := { listener := some listener }
  t.listen s.run.output

/-- Executes a script, and gives also the lines that a listener receives within a span of time. -/
def stream (s : Session) (script : Script) (span : Span) :
    Except Outcome String × List String × Session :=
  let (x, s, t) := s.carryOut (s.engine.execute s.run.name script) (s.listened span)
  (x, t.heard s.run.output, s)

end Session

end Stepwise
