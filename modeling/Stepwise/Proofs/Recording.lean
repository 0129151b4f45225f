import Stepwise.Proofs.Cancellation

/-!
# What accesses leave behind

A monitor can record accesses of one kind, in their order. Where nothing else works on a run, what a
process leaves of it is told by the accesses that change runs, and its history by the entries that
were written.

* `Monitor.recording`: the accesses of one kind so far.
* `Process.run_eq_foldl`: the run after a process, in a world that only cancels it.
* `Process.history_run`: the history after a process, in a world that leaves the history alone.
-/

namespace Stepwise

variable {α τ : Type}

/-- Records the accesses of one kind. -/
def Monitor.recording (kind : Run.Access → Bool) : Monitor (List Run.Access) where
  note cs c := if kind c then cs ++ [c] else cs

namespace Monitor

variable {kind : Run.Access → Bool} {c : Run.Access}

theorem recording_ignores (h : kind c = false) : (recording kind).Ignores c :=
  fun _ => ⟨trivial, if_neg (Bool.eq_false_iff.mp h)⟩

theorem recording_note (h : kind c = true) (cs : List Run.Access) :
    (recording kind).note cs c = cs ++ [c] := if_pos h

theorem foldl_recording (cs before : List Run.Access) :
    cs.foldl (recording kind).note before = before ++ cs.filter kind := by
  induction cs generalizing before with
  | nil => simp
  | cons c cs ih =>
    rw [List.foldl_cons, ih, List.filter_cons]
    split
    · rename_i hc
      rw [recording_note hc, List.append_assoc]
      rfl
    · rename_i hc
      rw [(recording_ignores (Bool.eq_false_iff.mpr hc) before).2]

end Monitor

/-- What a process must record, it has recorded in every run. -/
theorem Process.Meets.recorded {kind : Run.Access → Bool} {Q : α → List Run.Access → Prop}
    {p : Process α} (h : p.Meets (.recording kind) Q []) (world : World τ) (r : Run) (t : τ) :
    Q (p.run world r t).1 ((p.accesses world r t).filter kind) := by
  have := h.result world r t
  rwa [Monitor.foldl_recording, List.nil_append] at this

/-! ## The run -/

namespace Run

/-- The access changes the run, and does not only look at it. -/
def Access.isChange : Access → Bool
  | .read | .poll _ => false
  | _ => true

theorem perform_of_not_change {c : Access} (h : c.isChange = false) (r : Run) :
    (c.perform r).2 = r := by
  cases c with
  | read | poll => rfl
  | _ => cases h

/-- The run after accesses. -/
def after (r : Run) (cs : List Access) : Run := cs.foldl (fun r c => (c.perform r).2) r

end Run

namespace Process

theorem run_eq_foldl {world : World τ} (hw : world.OnlyCancels) (p : Process α) (r : Run) (b : Bool)
    (t : τ) :
    ∃ b', (p.run world (r.marked b) t).2.1 =
      (r.after ((p.accesses world (r.marked b) t).filter Run.Access.isChange)).marked b' := by
  induction p generalizing r b t with
  | done a => exact ⟨b, rfl⟩
  | access c next ih =>
    obtain ⟨b', hb'⟩ := hw.meanwhile_marked r b t
    rw [run_access, accesses_access, List.filter_cons, hb', Run.perform_marked]
    split
    · exact ih _ _ _ _
    · rename_i hc
      rw [Run.perform_of_not_change (Bool.eq_false_iff.mpr hc)]
      exact ih _ _ _ _
  | wait w next ih =>
    obtain ⟨b', hb'⟩ := hw.await_marked w r b t
    rw [run_wait, accesses_wait, hb']
    exact ih _ _ _ _

end Process

/-! ## The history -/

/-- Nothing outside the process touches the history of its run, and whether there is one. -/
structure World.LeavesHistory (world : World τ) : Prop where
  meanwhile : ∀ r t, (world.meanwhile r t).1.history = r.history ∧
    (world.meanwhile r t).1.options = r.options
  await : ∀ w r t, (world.await w r t).2.1.history = r.history ∧
    (world.await w r t).2.1.options = r.options

theorem World.answering_leavesHistory (answer : (w : Wait) → τ → w.Answer × τ) :
    (World.answering answer).LeavesHistory := ⟨fun _ _ => ⟨rfl, rfl⟩, fun _ _ _ => ⟨rfl, rfl⟩⟩

namespace Run

/-- The entry that is written to the history. -/
def Access.entry? : Access → Option Entry
  | .log entry => some entry
  | _ => none

theorem options_perform (c : Access) (r : Run) : (c.perform r).2.options = r.options := by
  cases c with
  | log entry =>
    show (r.log entry).options = _
    unfold log
    split
    · rfl
    · rfl
  | enter index =>
    show (r.enter index).options = _
    unfold enter
    split
    · rfl
    · rfl
  | _ => rfl

theorem history_perform (c : Access) {r : Run} (h : r.options.logsHistory = true) :
    (c.perform r).2.history.toList = r.history.toList ++ c.entry?.toList := by
  cases c with
  | log entry =>
    show (r.log entry).history.toList = _
    rw [log, if_pos h, Array.toList_push]
    rfl
  | enter index =>
    show (r.enter index).history.toList = _
    unfold enter
    split
    · exact (List.append_nil _).symm
    · exact (List.append_nil _).symm
  | _ => exact (List.append_nil _).symm

end Run

/-- A run that keeps a history has all the entries that were written, in their order. -/
theorem Process.history_run {world : World τ} (hw : world.LeavesHistory) (p : Process α) {r : Run}
    (hr : r.options.logsHistory = true) (t : τ) :
    (p.run world r t).2.1.history.toList =
      r.history.toList ++ (p.accesses world r t).filterMap Run.Access.entry? := by
  induction p generalizing r t with
  | done a => exact (List.append_nil _).symm
  | access c next ih =>
    obtain ⟨hh, ho⟩ := hw.meanwhile r t
    rw [← ho] at hr
    rw [run_access, accesses_access, ih _ ((congrArg _ (Run.options_perform c _)).trans hr),
      Run.history_perform c hr, hh, List.append_assoc]
    congr 1
    cases h : c.entry? with
    | none => rw [List.filterMap_cons_none h]; rfl
    | some entry => rw [List.filterMap_cons_some h]; rfl
  | wait w next ih =>
    obtain ⟨hh, ho⟩ := hw.await w r t
    rw [← ho] at hr
    rw [run_wait, accesses_wait, ih _ hr, hh]

end Stepwise
