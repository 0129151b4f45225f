import Stepwise.Proofs.Invariant

/-!
# Steps and the stage of their run

The stage of a run is what its lifecycle shows: whether it has been launched and started, its
status, and the error that ended it. Dispatched steps neither look at the stage nor change it, so in
a world that leaves the run alone they do the same at every stage.

* `Engine.dispatch_own`: no step makes an access of the lifecycle.
* `Process.run_atStage`: a process without such accesses does not depend on the stage.
-/

namespace Stepwise

namespace Run

/-- What the lifecycle of a run shows. -/
structure Stage where
  launched : Bool
  started : Bool
  status : Status
  error : Option Outcome

/-- The run at another stage, with the same variables, output, triggers and history. -/
def atStage (r : Run) (stage : Stage) : Run :=
  { r with
    launched := stage.launched, started := stage.started, status := stage.status,
    error := stage.error }

/-- An access of a step gives the same at every stage, and leaves the stage alone. -/
theorem perform_atStage {c : Access} (hc : ¬c.OfLifecycle) (r : Run) (stage : Stage) :
    c.perform (r.atStage stage) = ((c.perform r).1, (c.perform r).2.atStage stage) := by
  cases c with
  | launch | start | announce | enter | blame => exact absurd trivial hc
  | poll | read | assign | print | record => rfl
  | log entry =>
    show ((), (r.atStage stage).log entry) = ((), (r.log entry).atStage stage)
    by_cases h : r.options.logsHistory
    · rw [log, log, if_pos h, if_pos (show (r.atStage stage).options.logsHistory from h)]
      rfl
    · rw [log, log, if_neg h, if_neg (show ¬(r.atStage stage).options.logsHistory from h)]

end Run

/-- The accesses of the lifecycle are not allowed. -/
def Monitor.ownOnly : Monitor Unit where
  allows _ c := ¬c.OfLifecycle

theorem Monitor.ownOnly_ignoresActions : ownOnly.IgnoresActions := by
  intro c hc g
  refine ⟨fun h => ?_, rfl⟩
  cases c <;> first | exact hc | exact h

theorem Monitor.ownOnly_maintains : ownOnly.watch.Maintains fun _ => True where
  lenient _ _ := ownOnly_ignoresActions.lenient fun _ _ => .inl trivial
  polls _ _ _ := ⟨fun h => h, trivial⟩
  logs _ _ := ⟨fun h => h, fun _ => rfl⟩
  commands g _ _ a _ _ := ownOnly.allowsCommand g a

namespace Process

variable {α σ : Type}

/-- The process makes no access of the lifecycle. -/
def Own (p : Process α) : Prop := p.Meets .ownOnly (fun _ _ => True) ()

theorem run_atStage {p : Process α} (h : p.Own) (answer : (w : Wait) → σ → w.Answer × σ)
    (r : Run) (s : σ) (stage : Run.Stage) :
    p.run (.answering answer) (r.atStage stage) s =
      let (a, r, s) := p.run (.answering answer) r s
      (a, r.atStage stage, s) := by
  induction p generalizing r s with
  | done a => rfl
  | access c next ih =>
    rw [run_access, run_access]
    show (next (c.perform (r.atStage stage)).1).run _ (c.perform (r.atStage stage)).2 s = _
    rw [Run.perform_atStage h.1]
    exact ih _ (h.2 _) (c.perform r).2 s
  | wait w next ih => exact ih _ (h _) r (answer w s).2

end Process

/-- No step makes an access of the lifecycle, however deep its lists go. -/
theorem Engine.dispatch_own (e : Engine) (s : Step) : (e.dispatch s).Own :=
  Process.Meets.mono (Process.meets_iff_keeps.mpr
    (dispatch_keeps_invariant Monitor.ownOnly_maintains e s trivial)) fun _ _ _ => trivial

end Stepwise
