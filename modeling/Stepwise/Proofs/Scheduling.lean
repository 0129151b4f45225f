import Stepwise.Proofs.Turns

/-!
# The schedule of a service

A service serves every call as a whole, and its runs go on one after the other while it sleeps or
waits for one of them. This is one of the orders in which calls and runs may take turns.

* `Service.Becomes`: a service becomes another one by events that leave no call unfinished.
* `Job.proceed_course`: what a job does up to a moment is a course of its process.
* `Service.Reached`, `Service.Reached.becomes`: whatever a service goes through, it goes through by
  such events.
-/

namespace Stepwise

open Hosted (Event Happens Trace)

/-- What a job does up to a moment, it does on its own. -/
theorem Job.proceed_course (reached : Nat → Bool) (p : Process (Except Outcome String)) (run : Run)
    (since : Nat) : ∃ moves, p.Course run moves (Job.proceed reached p run since).process
      (Job.proceed reached p run since).run := by
  induction p generalizing run since with
  | done result => exact ⟨[], .refl⟩
  | access c next ih =>
    obtain ⟨moves, hmoves⟩ := ih (c.perform run).1 (c.perform run).2 since
    exact ⟨_, .access hmoves⟩
  | wait w next ih =>
    have hwait (x : w.Answer) (since : Nat) : ∃ moves, (Process.wait w next).Course run moves
        (Job.proceed reached (next x) run since).process
        (Job.proceed reached (next x) run since).run := by
      obtain ⟨moves, hmoves⟩ := ih x run since
      exact ⟨_, .wait hmoves⟩
    -- The wait is over by now, or the job stays in front of it.
    unfold Job.proceed
    split
    · exact hwait _ _
    · split
      · exact hwait _ _
      · split
        · exact hwait _ _
        · exact ⟨[], .refl⟩

namespace Service

variable {e : Engine} {s s' s'' : Service} {i : Nat} {name id : String} {names : List String}
  {script : Script} {values : Entries Value} {options : Run.Options}

/-- Events that leave no call unfinished lead from one state of a service to another. -/
def Becomes (s s' : Service) : Prop := ∃ es, Trace ⟨s, []⟩ es ⟨s', []⟩

/-- The first of the runs have gone on up to a moment. -/
def advanceFirst (s : Service) (n : Nat) (reached : Nat → Bool) : Service :=
  { s with jobs := s.jobs.mapIdx fun i j => if i < n then j.advance s.now reached else j }

theorem job?_advanceFirst (s : Service) (n i : Nat) (reached : Nat → Bool) :
    (s.advanceFirst n reached).job? i =
      (s.job? i).map fun j => if i < n then j.advance s.now reached else j :=
  Array.getElem?_mapIdx

namespace Becomes

theorem refl : s.Becomes s := ⟨[], .start⟩

theorem trans (h : s.Becomes s') (h' : s'.Becomes s'') : s.Becomes s'' := by
  obtain ⟨es, hes⟩ := h
  obtain ⟨es', hes'⟩ := h'
  exact ⟨es ++ es', hes.trans hes'⟩

/-- A call that has one thing yet to do does it at once. -/
theorem of_call {event : Event} {t : Task} (h : Happens ⟨s, []⟩ event ⟨s', [t]⟩) :
    s.Becomes (s'.perform t) :=
  ⟨_, .snoc (.snoc .start h) (@Happens.perform ⟨s', [t]⟩ [] [] t rfl)⟩

/-- Creating a run also sets its variables. -/
theorem create (h : s.create names script values options = some (id, s')) : s.Becomes s' := by
  rw [create_eq, Option.map_eq_some_iff] at h
  obtain ⟨⟨id, s₁⟩, hcreate, hs⟩ := h
  obtain ⟨rfl, rfl⟩ := Prod.mk.inj hs
  have hstep : Happens ⟨s, []⟩ _ _ := .create values hcreate
  exact of_call hstep

/-- Deleting one also cancels it. -/
theorem delete (s : Service) (name : String) : s.Becomes (s.delete name).2 := by
  rw [delete_eq]
  cases hname : s.unregister name with
  | mk found s' =>
    have hstep : Happens ⟨s, []⟩ _ _ := .delete hname
    cases found with
    | none => exact ⟨_, .snoc .start hstep⟩
    | some i => exact of_call hstep

/-- Changing one does what was asked for. -/
theorem update {f : Run → Run} (request : Request)
    (hf : ∀ i, ∃ t, request.task? i = some t ∧ t.job = i ∧ t.change = f)
    (h : s.update name f = .ok s') : s.Becomes s' := by
  unfold Service.update at h
  cases hfind : s.find name with
  | error c =>
    rw [hfind] at h
    cases h
  | ok i =>
    rw [hfind] at h
    obtain rfl := Except.ok.inj h
    obtain ⟨t, ht, rfl, rfl⟩ := hf i
    have hstep : Happens ⟨s, []⟩ (.called request name (.ok t.job)) ⟨s, [t]⟩ := by
      have hcall : Happens ⟨s, []⟩ _ _ := .call request hfind
      rwa [Event.asks, ht] at hcall
    exact of_call hstep

theorem clearOutput (h : s.update name Run.clearOutput = .ok s') : s.Becomes s' :=
  update .clearOutput (fun i => ⟨.clearOutput i, rfl, rfl, rfl⟩) h

theorem clearHistory (h : s.update name Run.clearHistory = .ok s') : s.Becomes s' :=
  update .clearHistory (fun i => ⟨.clearHistory i, rfl, rfl, rfl⟩) h

/-- Between services that differ only in what time it is, time may pass. -/
theorem of_work (hwork : ∀ i, Hosted.work? ⟨s', []⟩ i = Hosted.work? ⟨s, []⟩ i)
    (he : s'.engine = s.engine) (hr : s'.registered = s.registered) : s.Becomes s' := by
  have hjobs : (s.jobs.mapIdx fun i j => { j with since := (s'.job? i).elim 0 Job.since }) =
      s'.jobs := by
    refine Array.ext_getElem? fun i => ?_
    rw [Array.getElem?_mapIdx, job?]
    have hi : s'.jobs[i]?.map _ = s.jobs[i]?.map _ := hwork i
    cases hj : s.jobs[i]? with
    | none =>
      rw [hj, Option.map_none, Option.map_eq_none_iff] at hi
      exact hi.symm
    | some j =>
      rw [hj] at hi
      obtain ⟨j', hj', hwork'⟩ := Option.map_eq_some_iff.mp hi
      obtain ⟨hrun, hprocess⟩ := Prod.mk.inj hwork'
      rw [hj', Option.map_some, Option.elim_some, ← hrun, ← hprocess]
  have hstep : Happens ⟨s, []⟩ _ _ := .pass s'.now fun i => (s'.job? i).elim 0 Job.since
  rw [hjobs] at hstep
  replace hstep : Happens ⟨s, []⟩ .passed ⟨⟨s.engine, s'.now, s'.jobs, s.registered⟩, []⟩ := hstep
  rw [← he, ← hr] at hstep
  exact ⟨_, .snoc .start hstep⟩

/-- A run may go on up to a moment. -/
theorem advance_one (s : Service) (i now : Nat) (reached : Nat → Bool) :
    s.Becomes (s.modify i (·.advance now reached)) := by
  cases hj : s.job? i with
  | none =>
    rw [modify_eq_self fun j hj' => by cases hj.symm.trans hj']
    exact .refl
  | some j =>
    obtain ⟨moves, hcourse⟩ := Job.proceed_course reached j.process j.run
      (if j.run.cancelled then max j.since now else j.since)
    have hmoves := Hosted.trace_of_course (s := ⟨s, []⟩) (i := i) hcourse
      (Hosted.work?_eq_some.mpr ⟨j.since, hj⟩) rfl
    refine trans ⟨_, hmoves⟩ (of_work (fun k => ?_) rfl rfl)
    unfold Hosted.work?
    rw [job?_modify, job?_modify]
    split
    · next hk =>
      rw [← hk, hj]
      rfl
    · rfl

/-- All runs may go on, one after the other. -/
theorem advance (s : Service) (reached : Nat → Bool) : s.Becomes (s.advance reached) := by
  -- By induction on the number of jobs that have gone on: in each turn one more does.
  have hfirst (n : Nat) : s.Becomes (s.advanceFirst n reached) := by
    induction n with
    | zero =>
      refine of_work (fun i => ?_) rfl rfl
      unfold Hosted.work?
      rw [job?_advanceFirst, Option.map_map]
      rfl
    | succ n ih =>
      refine (ih.trans (advance_one _ n s.now reached)).trans (of_work (fun i => ?_) rfl rfl)
      unfold Hosted.work?
      simp only [job?_modify, job?_advanceFirst]
      by_cases hi : n = i
      · subst hi
        simp
      · have hlt : i < n + 1 ↔ i < n := by omega
        simp [hi, hlt]
  refine (hfirst s.jobs.size).trans (of_work (fun i => ?_) rfl rfl)
  unfold Hosted.work?
  rw [job?_advanceFirst]
  have hadvance : (s.advance reached).job? i = (s.job? i).map (·.advance s.now reached) :=
    Array.getElem?_map
  rw [hadvance]
  cases hj : s.job? i with
  | none => rfl
  | some j =>
    have hlt : i < s.jobs.size := (Array.getElem?_eq_some_iff.mp hj).1
    simp [hlt]

/-- Time may pass for the service alone. -/
theorem pass (s : Service) (now : Nat) : s.Becomes { s with now } := of_work (fun _ => rfl) rfl rfl

theorem sleep (s : Service) (seconds : Float) : s.Becomes (s.sleep seconds) := by
  unfold Service.sleep
  split
  · exact refl
  · exact (advance s _).trans (pass _ _)

theorem finish (s : Service) (i : Nat) : s.Becomes (s.finish i) := by
  unfold Service.finish
  split
  · exact refl
  · exact ((advance_one s i _ _).trans (advance _ _)).trans (pass _ _)

theorem await {run : Run} (h : s.await name = .ok (run, s')) : s.Becomes s' := by
  unfold Service.await at h
  cases hfind : s.find name with
  | error c =>
    rw [hfind] at h
    cases h
  | ok i =>
    cases hrun : s.get name with
    | error c =>
      rw [hfind, hrun] at h
      cases h
    | ok r =>
      simp only [hfind, hrun, bind, Except.bind] at h
      split at h
      · cases h
        exact refl
      · split at h
        · cases h
        · cases h
          exact finish s i

end Becomes

/-- The states of a service that only its own functions work on. -/
inductive Reached (e : Engine) : Service → Prop
  | start : Reached e { engine := e }
  | create {s s' : Service} {names : List String} {id : String} {script : Script}
      {values : Entries Value} {options : Run.Options} : Reached e s →
      s.create names script values options = some (id, s') → Reached e s'
  | delete {s : Service} (name : String) : Reached e s → Reached e (s.delete name).2
  | clearOutput {s s' : Service} {name : String} : Reached e s →
      s.update name Run.clearOutput = .ok s' → Reached e s'
  | clearHistory {s s' : Service} {name : String} : Reached e s →
      s.update name Run.clearHistory = .ok s' → Reached e s'
  | sleep {s : Service} (seconds : Float) : Reached e s → Reached e (s.sleep seconds)
  | await {s s' : Service} {name : String} {run : Run} : Reached e s →
      s.await name = .ok (run, s') → Reached e s'

/-- Whatever a service goes through, it goes through by events that leave no call unfinished. -/
theorem Reached.becomes (h : Reached e s) : Becomes { engine := e } s := by
  induction h with
  | start => exact .refl
  | create _ h ih => exact ih.trans (.create h)
  | delete name _ ih => exact ih.trans (.delete _ name)
  | clearOutput _ h ih => exact ih.trans (.clearOutput h)
  | clearHistory _ h ih => exact ih.trans (.clearHistory h)
  | sleep seconds _ ih => exact ih.trans (.sleep _ seconds)
  | await _ h ih => exact ih.trans (.await h)

end Service

end Stepwise
