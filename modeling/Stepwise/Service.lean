import Stepwise.Run.Execute
import Stepwise.Run.Timeline

/-!
# The service

A service carries out many runs of one engine in the background. A run is registered under its name
until it is deleted, which also cancels it; one that has ended stays. Runs work only while the
service waits, each on its own state.

* `Job.advance`: what a run does up to a moment.
* `Service.create`, `Service.delete`: registering runs.
* `Service.sleep`, `Service.await`: letting time pass.
-/

namespace Stepwise

/-- A run, what is left to do on it, and the moment that has been reached. -/
structure Job where
  run : Run
  process : Process (Except Outcome String)
  since : Nat

namespace Job

/-- What came of a job, once nothing is left to do. -/
def result? (j : Job) : Option (Except Outcome String) :=
  match j.process with
  | .done x => some x
  | _ => none

/-- What is done on a run as long as waits are over at moments that have been reached. Once the run
is cancelled, no wait takes time. -/
def proceed (reached : Nat → Bool) : Process (Except Outcome String) → Run → Nat → Job
  | .done x, run, since => ⟨run, .done x, since⟩
  | .access c next, run, since =>
    let (x, run) := c.perform run
    proceed reached (next x) run since
  | .wait w next, run, since =>
    match w.ending since with
    | (none, x) => proceed reached (next x) run since
    | (some moment, x) =>
      if run.cancelled then proceed reached (next w.interrupted) run since
      else if reached moment then proceed reached (next x) run moment
      else ⟨run, .wait w next, since⟩

/-- Carries on from now as long as waits are over at moments that have been reached. A wait that was
cut short by a cancellation is over now. -/
def advance (j : Job) (now : Nat) (reached : Nat → Bool) : Job :=
  proceed reached j.process j.run (if j.run.cancelled then max j.since now else j.since)

end Job

/-- An engine and its runs. -/
structure Service where
  engine : Engine
  /-- How much time has passed. -/
  now : Nat := 0
  /-- All runs there ever were, in the order of their creation. -/
  jobs : Array Job := #[]
  /-- The names of the registered runs, and which runs they are. -/
  registered : List (String × Nat) := []

namespace Service

/-! ## Registered runs -/

/-- The run registered under a name. -/
def find (s : Service) (name : String) : Except Cause Nat :=
  match s.registered.lookup name with
  | some i => .ok i
  | none => .error (.runNotFound name)

/-- A job there ever was. -/
def job? (s : Service) (i : Nat) : Option Job := s.jobs[i]?

/-- The state of a registered run. -/
def get (s : Service) (name : String) : Except Cause Run := do
  let i ← s.find name
  match s.job? i with
  | some j => return j.run
  | none => .error (.runNotFound name)

/-- Changes one job. -/
def modify (s : Service) (i : Nat) (f : Job → Job) : Service :=
  { s with jobs := s.jobs.modify i f }

/-- Works directly on a registered run. -/
def update (s : Service) (name : String) (f : Run → Run) : Except Cause Service := do
  let i ← s.find name
  return s.modify i fun j => { j with run := f j.run }

/-- Registers a new run under the first of the names that is free, and has it execute a script in
the background. -/
def create (s : Service) (names : List String) (script : Script) (initial : Entries Value)
    (options : Run.Options) : Option (String × Service) := do
  let name ← names.find? fun n => (s.registered.lookup n).isNone
  let run := (Run.create name options s.engine.config).seed initial
  let job : Job := ⟨run, s.engine.execute name script, s.now⟩
  return (name, { s with jobs := s.jobs.push job,
                         registered := (name, s.jobs.size) :: s.registered })

/-- Deletes a run and cancels it; tells whether there was one. -/
def delete (s : Service) (name : String) : Bool × Service :=
  match s.find name with
  | .error _ => (false, s)
  | .ok i =>
    let s := s.modify i fun j => { j with run := j.run.cancel }
    (true, { s with registered := s.registered.filter (·.1 ≠ name) })

/-- The names of the registered runs in their order. -/
def names (s : Service) : List String := (s.registered.map (·.1)).mergeSort fun a b => a ≤ b

/-! ## Time -/

/-- Has all jobs carry on as long as waits are over at moments that have been reached. -/
def advance (s : Service) (reached : Nat → Bool) : Service :=
  { s with jobs := s.jobs.map (·.advance s.now reached) }

/-- Lets a number of seconds pass. What is due at the end of them is left for later. -/
def sleep (s : Service) (seconds : Float) : Service :=
  match Wait.ticks seconds with
  | 0 => s
  | ticks =>
    let moment := s.now + ticks
    { s.advance (· < moment) with now := moment }

/-- Lets time pass until a job is done. -/
def finish (s : Service) (i : Nat) : Service :=
  match s.job? i with
  | none => s
  | some j =>
    let moment := max s.now (j.advance s.now fun _ => true).since
    { s.modify i (·.advance s.now fun _ => true) |>.advance (· ≤ moment) with now := moment }

/-- Lets time pass until a registered run has ended, and gives its state. -/
def await (s : Service) (name : String) : Except Cause (Run × Service) := do
  let i ← s.find name
  let run ← s.get name
  if run.status.isTerminal then return (run, s)
  let s := s.finish i
  return (← s.get name, s)

/-- Executes a script on a run, which succeeds only if nothing was executed on it before. Time
passes until the execution has ended. -/
def execute (s : Service) (i : Nat) (script : Script) : Option (Except Outcome String) × Service :=
  match s.job? i with
  | none => (none, s)
  | some j =>
    let process := s.engine.execute j.run.name script
    let job := Job.proceed (fun _ => false) process j.run s.now
    match job.result? with
    | some x => (some x, s.modify i fun j => { j with run := job.run })
    | none =>
      let s := (s.modify i fun _ => job).finish i
      ((s.job? i).bind Job.result?, s)

end Service

end Stepwise
