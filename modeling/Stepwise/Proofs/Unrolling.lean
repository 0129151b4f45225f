import Stepwise.Proofs.Passes
import Stepwise.Proofs.Substitution

/-!
# Counted loops as lists of steps

A loop that counts its passes does what the list of its passes does, with each pass written out as a
step that sets the index and then the steps of the loop. The loop itself logs no step for the index,
so the two differ in the history of the run, and in nothing else. How long the list is depends on
the count and the limit alone, so no step of the loop can change it; and the list holds the steps as
they were written, so a placeholder in one of them is filled when that step is dispatched.

* `Process.runUnlogged`: what a process does, but for the history.
* `Engine.setIndex`, `Engine.straight`: the list of steps.
* `Engine.runUnlogged_passes_counted`: some passes against the list of these passes.
* `Engine.counted_loop_unrolls`: a counted loop against its list.
-/

namespace Stepwise

/-! ## Runs without their history -/

theorem Run.clearHistory_log (r : Run) (entry : Run.Entry) :
    (r.log entry).clearHistory = r.clearHistory := by
  unfold log
  split
  · rfl
  · rfl

/-- What an access gives and does depends on the history only in the history. -/
theorem Run.perform_clearHistory (c : Run.Access) (r : Run) :
    (c.perform r.clearHistory).1 = (c.perform r).1 ∧
      (c.perform r.clearHistory).2.clearHistory = (c.perform r).2.clearHistory := by
  cases c with
  | enter index =>
    refine ⟨rfl, ?_⟩
    show (r.clearHistory.enter index).clearHistory = (r.enter index).clearHistory
    unfold enter
    rw [apply_ite clearHistory, apply_ite clearHistory]
    rfl
  | log entry =>
    exact ⟨rfl, (clearHistory_log _ entry).trans (clearHistory_log r entry).symm⟩
  | launch | start | announce | blame | poll | read | assign | print | record => exact ⟨rfl, rfl⟩

namespace Process

variable {α β σ : Type} {answer : (w : Wait) → σ → w.Answer × σ} {r r' : Run}

/-- Carries out a process on a run that is left alone, and forgets the history in the end. -/
def runUnlogged (answer : (w : Wait) → σ → w.Answer × σ) (p : Process α) (r : Run) (w : σ) :
    α × Run × σ :=
  let (a, r, w) := p.run (.answering answer) r w
  (a, r.clearHistory, w)

theorem runUnlogged_of_run {p : Process α} {a : α} {w w' : σ}
    (h : p.run (.answering answer) r w = (a, r', w')) :
    p.runUnlogged answer r w = (a, r'.clearHistory, w') := by
  rw [runUnlogged, h]

/-- A process does the same whatever the history is. -/
theorem runUnlogged_congr (p : Process α) (w : σ) (h : r.clearHistory = r'.clearHistory) :
    p.runUnlogged answer r w = p.runUnlogged answer r' w := by
  induction p generalizing r r' w with
  | done a => exact congrArg (fun r => (a, r, w)) h
  | access c next ih =>
    obtain ⟨hr, hr₂⟩ := Run.perform_clearHistory c r
    obtain ⟨hr', hr₂'⟩ := Run.perform_clearHistory c r'
    rw [h] at hr hr₂
    show (next (c.perform r).1).runUnlogged answer (c.perform r).2 w =
      (next (c.perform r').1).runUnlogged answer (c.perform r').2 w
    rw [← hr, hr']
    exact ih _ w (hr₂.symm.trans hr₂')
  | wait x next ih => exact ih _ _ h

theorem runUnlogged_clearHistory (p : Process α) (r : Run) (w : σ) :
    p.runUnlogged answer r.clearHistory w = p.runUnlogged answer r w :=
  runUnlogged_congr p w rfl

/-- A run that is left alone is not cancelled. -/
theorem cancelled_runUnlogged (p : Process α) (answer : (w : Wait) → σ → w.Answer × σ) (r : Run)
    (w : σ) :
    (p.runUnlogged answer r w).2.1.cancelled = r.cancelled :=
  p.cancelled_run answer r w

theorem runUnlogged_bind (p : Process α) (f : α → Process β) (r : Run) (w : σ) :
    (p.bind f).runUnlogged answer r w =
      let (a, r, w) := p.runUnlogged answer r w
      (f a).runUnlogged answer r w := by
  unfold runUnlogged
  rw [run_bind]
  obtain ⟨a, r', w'⟩ := p.run (.answering answer) r w
  exact (runUnlogged_clearHistory (f a) r' w').symm

end Process

namespace Engine

variable {σ : Type} {e : Engine} {answer : (w : Wait) → σ → w.Answer × σ} {r : Run} {w : σ}
  {ts us : List Step} {n limit : Nat}

theorem runUnlogged_runSteps_append :
    (e.runSteps (ts ++ us)).runUnlogged answer r w =
      match (e.runSteps ts).runUnlogged answer r w with
      | (.error o, r, w) => (.error o, r, w)
      | (.ok _, r, w) =>
        match (e.runSteps us).runUnlogged answer r w with
        | (.error o, r, w) => (.error o, r, w)
        | (.ok _, r, w) => (.ok (ts.length + us.length), r, w) := by
  rcases hts : (e.runSteps ts).run (.answering answer) r w with ⟨result, r', w'⟩
  rw [Process.runUnlogged_of_run hts, Process.runUnlogged, run_runSteps_append, hts]
  cases result with
  | error o => rfl
  | ok n =>
    dsimp only
    rw [Process.runUnlogged_clearHistory]
    rcases hus : (e.runSteps us).run (.answering answer) r' w' with ⟨result, r'', w''⟩
    rw [Process.runUnlogged_of_run hus]
    cases result with
    | error o => rfl
    | ok n => rfl

/-! ## The index of a pass -/

/-- The step that sets the index of a pass. -/
def setIndex (k : Nat) : Step :=
  ⟨[("action", .str "set_var"), ("name", .str "loop_index"), ("value", .int k)]⟩

/-- So many passes of a loop over the steps `ts`, written out. -/
def straight (ts : List Step) (m : Nat) : List Step :=
  (List.range m).flatMap fun k => setIndex k :: ts

theorem resolve_loop_index (store : Store) (policy : Template.Policy) :
    Template.resolve store policy (.str "loop_index") = .ok (.str "loop_index") := by
  have hproper : (Template.Layout.literal "loop_index".toList).Proper :=
    Template.plain_of_dollar_notMem (by decide)
  have hfill := Template.fill_text store policy hproper
  rw [Template.resolve, show "loop_index" = String.ofList (Template.Layout.text (.literal
    "loop_index".toList)) from rfl, hfill]
  cases policy with
  | preserve => rfl
  | error => rfl

/-- The outcome of the step that sets the index. -/
def indexSet (k : Nat) : Outcome :=
  .success "set_var" ("Variable 'loop_index' set to '" ++ (Value.int k).display ++ "'")

theorem read_setIndex (k : Nat) :
    Action.read .setVar (setIndex k) = .ok (.assign "loop_index" (.int k) false) := by
  have hfields : checkFields (Action.Kind.fields .setVar) (Action.Kind.name .setVar) (setIndex k) =
      .ok () := rfl
  have hname : Action.checkName .setVar "name" "loop_index" = .ok () := rfl
  exact Except.bind_eq_ok.mpr ⟨(), hfields, Except.bind_eq_ok.mpr ⟨(), hname, rfl⟩⟩

theorem ready_setIndex (store : Store) (k : Nat) :
    e.ready (.ofKind .setVar) store (setIndex k) = .ok (setIndex k) := by
  have hfields : e.fieldsRead (.ofKind .setVar) store (setIndex k).fields =
      (Template.resolve store e.config.undefinedVariables (.str "loop_index")).bind fun v =>
        .ok [("name", v), ("value", .int k)] := rfl
  rw [resolve_loop_index] at hfields
  refine ready_eq_ok.mpr ⟨⟨_, hfields, rfl⟩, ?_⟩
  show (Action.read .setVar (setIndex k)).map _ = .ok ()
  rw [read_setIndex]
  rfl

/-- Setting the index is one assignment. -/
theorem runUnlogged_dispatch_setIndex (he : e.registry.find? "set_var" = some (.ofKind .setVar))
    (hr : r.cancelled = false) (k : Nat) :
    (e.dispatch (setIndex k)).runUnlogged answer r w =
      (indexSet k, (r.assign "loop_index" (.int k)).clearHistory, w) := by
  have haction : e.actionOf (setIndex k) = .ok (.ofKind .setVar) :=
    actionOf_eq_ok.mpr ⟨"set_var", rfl, he, rfl⟩
  have hhandle : (e.handle (e.runField (setIndex k).fields) (.ofKind .setVar) (setIndex k)).run.run
      (.answering answer) r w = (.ok (indexSet k), r.assign "loop_index" (.int k), w) := by
    show (Attempt.settled (Action.read .setVar (setIndex k)) >>= fun a => _).run.run _ _ _ = _
    rw [Attempt.run_bind, Attempt.run_settled, read_setIndex]
    rfl
  have hrun : (e.dispatch (setIndex k)).run (.answering answer) r w =
      (indexSet k, (r.assign "loop_index" (.int k)).log ⟨"set_var", indexSet k⟩, w) := by
    rw [run_dispatch_prepared hr haction (ready_setIndex r.store k), hhandle]
    rfl
  rw [Process.runUnlogged_of_run hrun, Run.clearHistory_log]

/-- A pass that is written out, and what comes after it. -/
theorem runUnlogged_runSteps_setIndex (he : e.registry.find? "set_var" = some (.ofKind .setVar))
    (hr : r.cancelled = false) (k : Nat) :
    (e.runSteps (setIndex k :: ts)).runUnlogged answer r w =
      match (e.runSteps ts).runUnlogged answer (r.assign "loop_index" (.int k)) w with
      | (.error o, r, w) => (.error o, r, w)
      | (.ok _, r, w) => (.ok (ts.length + 1), r, w) := by
  have hone : (e.runSteps [setIndex k]).runUnlogged answer r w =
      (.ok 1, (r.assign "loop_index" (.int k)).clearHistory, w) := by
    show ((e.dispatch (setIndex k)).bind _).runUnlogged answer r w = _
    rw [Process.runUnlogged_bind, runUnlogged_dispatch_setIndex he hr]
    rfl
  rw [← List.singleton_append, runUnlogged_runSteps_append, hone]
  dsimp only
  rw [Process.runUnlogged_clearHistory, List.length_singleton, Nat.add_comm]

/-! ## Counted passes -/

section Pass

variable {body : Process (Except Outcome Nat)} (done left : Nat)

theorem run_mayPass_counted (hr : r.cancelled = false) :
    (e.mayPass (.counted n) done).run.run (.answering answer) r w =
      (.ok (decide (done < n)), r, w) := by
  unfold mayPass
  rw [Attempt.run_bind, Attempt.run_access]
  simp only [Run.Access.perform, hr, Bool.false_eq_true, if_false]
  rfl

/-- The count is reached. -/
theorem runUnlogged_passes_done (hr : r.cancelled = false) :
    (e.passes (.counted n) limit body n left).run.runUnlogged answer r w =
      (.ok (.ok n), r.clearHistory, w) := by
  refine Process.runUnlogged_of_run ?_
  cases left with
  | zero =>
    rw [passes, Attempt.run_bind, run_mayPass_counted _ hr, decide_eq_false n.lt_irrefl]
    rfl
  | succ left =>
    rw [passes, Attempt.run_bind, run_mayPass_counted _ hr, decide_eq_false n.lt_irrefl]
    rfl

/-- The limit is reached, and the count is not. -/
theorem runUnlogged_passes_zero (hr : r.cancelled = false) (hn : done < n) :
    (e.passes (.counted n) limit body done 0).run.runUnlogged answer r w =
      (.error (.loopLimitExceeded limit), r.clearHistory, w) := by
  refine Process.runUnlogged_of_run ?_
  rw [passes, Attempt.run_bind, run_mayPass_counted _ hr, decide_eq_true hn]
  rfl

theorem run_passes_counted_succ (hr : r.cancelled = false) (hn : done < n) :
    (e.passes (.counted n) limit body done (left + 1)).run.run (.answering answer) r w =
      match body.run (.answering answer) (r.assign "loop_index" (.int done)) w with
      | (.error o, r, w) => (.ok (.error o), r, w)
      | (.ok _, r, w) =>
        (e.passes (.counted n) limit body (done + 1) left).run.run (.answering answer) r w := by
  rw [passes, Attempt.run_bind, run_mayPass_counted _ hr, decide_eq_true hn]
  show (Attempt.access (.assign "loop_index" (.int done)) >>= fun _ => _).run.run _ _ _ = _
  rw [Attempt.run_bind, Attempt.run_access]
  show (ExceptT.lift body >>= fun result => _).run.run _ (r.assign "loop_index" (.int done)) _ = _
  rw [Attempt.run_bind, Attempt.run_lift]
  obtain ⟨result, r', w'⟩ := body.run (.answering answer) (r.assign "loop_index" (.int done)) w
  cases result with
  | error o => rfl
  | ok n => rfl

/-- A pass is made: the index is set, and the steps are run. -/
theorem runUnlogged_passes_succ (hr : r.cancelled = false) (hn : done < n) :
    (e.passes (.counted n) limit body done (left + 1)).run.runUnlogged answer r w =
      match body.runUnlogged answer (r.assign "loop_index" (.int done)) w with
      | (.error o, r, w) => (.ok (.error o), r, w)
      | (.ok _, r, w) =>
        (e.passes (.counted n) limit body (done + 1) left).run.runUnlogged answer r w := by
  rcases hbody : body.run (.answering answer) (r.assign "loop_index" (.int done)) w with
    ⟨result, r', w'⟩
  rw [Process.runUnlogged, run_passes_counted_succ done left hr hn, hbody,
    Process.runUnlogged_of_run hbody]
  cases result with
  | error o => rfl
  | ok m => exact (Process.runUnlogged_clearHistory _ r' w').symm

end Pass

/-- The passes from one on are the list of these passes, as long as the limit allows. -/
theorem runUnlogged_passes_counted (he : e.registry.find? "set_var" = some (.ofKind .setVar))
    (hr : r.cancelled = false) {done : Nat} (left : Nat) (hdone : done ≤ n) :
    (e.passes (.counted n) limit (e.runSteps ts) done left).run.runUnlogged answer r w =
      match (e.runSteps ((List.range' done (min (n - done) left)).flatMap fun k =>
        setIndex k :: ts)).runUnlogged answer r w with
      | (.error o, r, w) => (.ok (.error o), r, w)
      | (.ok _, r, w) =>
        (if n ≤ done + left then .ok (.ok n) else .error (.loopLimitExceeded limit), r, w) := by
  induction left generalizing done r w with
  | zero =>
    -- No pass is left: the loop has made all of them, or exceeds its limit.
    rw [Nat.min_zero]
    rcases Nat.lt_or_eq_of_le hdone with hn | rfl
    · rw [runUnlogged_passes_zero done hr hn, if_neg (by omega)]
      rfl
    · rw [runUnlogged_passes_done 0 hr, if_pos (by omega)]
      rfl
  | succ left ih =>
    rcases Nat.lt_or_eq_of_le hdone with hn | rfl
    · -- One more pass sets the index and runs the body, as the list does.
      have hmin : min (n - done) (left + 1) = min (n - (done + 1)) left + 1 := by omega
      rw [hmin, List.range'_succ, List.flatMap_cons, runUnlogged_runSteps_append,
        runUnlogged_runSteps_setIndex he hr, runUnlogged_passes_succ done left hr hn]
      have hr₁ := (e.runSteps ts).cancelled_runUnlogged answer
        (r.assign "loop_index" (.int done)) w
      rcases hbody : (e.runSteps ts).runUnlogged answer (r.assign "loop_index" (.int done)) w with
        ⟨result, r₁, w₁⟩
      rw [hbody] at hr₁
      cases result with
      -- A failure in the body ends both.
      | error o => rfl
      | ok m =>
        have hrest := ih (w := w₁) (hr₁.trans hr) (show done + 1 ≤ n from hn)
        rw [Nat.add_right_comm, Nat.add_assoc] at hrest
        dsimp only at hrest ⊢
        rw [hrest]
        obtain ⟨result, r₂, w₂⟩ := (e.runSteps ((List.range' (done + 1)
          (min (n - (done + 1)) left)).flatMap fun k => setIndex k :: ts)).runUnlogged answer r₁ w₁
        cases result with
        | error o => rfl
        | ok m => rfl
    · rw [runUnlogged_passes_done (left + 1) hr, Nat.sub_self, Nat.zero_min,
        if_pos (Nat.le_add_right _ _)]
      rfl

/-- A loop that counts to `n` is the list of its passes, written out, up to the limit: it leaves the
same variables, output and triggers, and everything else of the run but its history, and an outcome
that ends the list ends the loop. A loop that counts further than its limit fails with the limit
after as many passes as that allows, if none of them fails. The list depends on the steps, the count
and the limit alone, and has the steps of the loop in it as they were written. -/
theorem counted_loop_unrolls (e : Engine) (answer : (w : Wait) → σ → w.Answer × σ) (r : Run) (w : σ)
    {s s' : Step} {ts : List Step} {n limit : Nat}
    (he : e.registry.find? "set_var" = some (.ofKind .setVar)) (hr : r.cancelled = false)
    (h : e.Loops r.store s s' ts limit) (hn : Action.loopMode s' = .ok (.counted n)) :
    (e.dispatch s).runUnlogged answer r w =
      match (e.runSteps (straight ts (min n limit))).runUnlogged answer r w with
      | (.error o, r, w) => (o, r, w)
      | (.ok _, r, w) =>
        (if n ≤ limit then executed n else e.failure (some "loop") (.loopLimitExceeded limit),
          r, w) := by
  have hpasses := @runUnlogged_passes_counted _ e answer r w ts n limit he hr 0 limit n.zero_le
  rw [Nat.sub_zero, Nat.zero_add, ← List.range_eq_range'] at hpasses
  rw [Process.runUnlogged, run_dispatch_loop hr h hn]
  rcases hrun : (e.passes (.counted n) limit (e.runSteps ts) 0 limit).run.run (.answering answer)
    r w with ⟨result, r₁, w₁⟩
  rw [Process.runUnlogged_of_run hrun] at hpasses
  dsimp only
  rw [Run.clearHistory_log, straight]
  generalize (e.runSteps ((List.range (min n limit)).flatMap fun k =>
    setIndex k :: ts)).runUnlogged answer r w = list at hpasses ⊢
  obtain ⟨result', r₂, w₂⟩ := list
  cases result' with
  -- The list failed: the loop ends with the same outcome, whatever its limit.
  | error o =>
    cases hpasses
    rfl
  | ok m =>
    cases hpasses
    split
    · rfl
    · rfl

/-- A step that sets the index itself makes the loop neither longer nor shorter. -/
theorem counted_loop_unrolls_reset :
    let e : Engine := {}
    let r := Run.create "reset" {} e.config
    let s : Step := ⟨[("action", .str "loop"), ("iterations", .int 2),
      ("loop_steps", .list [(setIndex 7).toValue])]⟩
    e.registry.find? "set_var" = some (.ofKind .setVar) ∧ r.cancelled = false ∧
      e.Loops r.store s s [setIndex 7] 1000 ∧ Action.loopMode s = .ok (.counted 2) ∧
      (e.dispatch s).runUnlogged Wait.quiet r () =
        (executed 2, r.assign "loop_index" (.int 7), ()) := by
  intro e r s
  have hmode : Action.loopMode s = .ok (.counted 2) := rfl
  have hloops : e.Loops r.store s s [setIndex 7] 1000 := ⟨⟨rfl, rfl, _, rfl⟩, rfl, rfl⟩
  have hset (r : Run) (hr : r.cancelled = false) (k : Nat) (ts : List Step) :=
    @runUnlogged_runSteps_setIndex _ e Wait.quiet r () ts rfl hr k
  have h := counted_loop_unrolls e Wait.quiet r () rfl rfl hloops hmode
  have hstraight : straight [setIndex 7] (min 2 1000) =
      [setIndex 0, setIndex 7, setIndex 1, setIndex 7] := rfl
  rw [hstraight, hset _ rfl, hset _ rfl, hset _ rfl, hset _ rfl] at h
  exact ⟨rfl, rfl, hloops, hmode, h⟩

end Engine

end Stepwise
