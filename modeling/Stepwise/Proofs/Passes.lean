import Stepwise.Proofs.Screening

/-!
# The passes of a loop

A loop with a condition tests it before every pass, in the state the pass before has left. The
states between the passes do not depend on the condition, only on the steps; the condition decides
where the loop leaves this sequence. A loop may make one more test than passes, so one that is as
long as its limit ends well.

* `Engine.Loops`, `Engine.run_dispatch_loop`: a loop step, and its passes.
* `Engine.afterPasses`: the states between the passes.
* `Engine.run_passes_skip`: a loop from one of these states on.
* `Engine.tests_hold_or_end`: the tests hold up to the limit, or there is a first end.
* `Engine.outcome_eq_executed_iff`, `Engine.outcome_eq_exceeded_iff`: when a loop ends well, and
  when it fails with its limit.
* `Engine.loop_runs_while_holding`: all ways in which a loop ends.
-/

namespace Stepwise.Engine

variable {σ : Type} {e : Engine} {answer : (w : Wait) → σ → w.Answer × σ} {r : Run} {w : σ}
  {s s' : Step} {ts : List Step} {limit : Nat} {condition : Value}

/-! ## Loop steps -/

/-- The step `s` is a loop over the steps `ts` with this limit, and passes all checks when the
variables stand so; its action sees `s'`. -/
structure Loops (e : Engine) (store : Store) (s s' : Step) (ts : List Step) (limit : Nat) :
    Prop where
  accepted : e.Accepted store .loop s s'
  body : s.children? "loop_steps" = some (.ok ts)
  limit : (Action.loopLimit s').map (·.getD e.config.maxLoopIterations) = .ok limit

/-- The outcome of a loop that has made so many passes. -/
def executed (n : Nat) : Outcome := .success "loop" ("Executed " ++ toString n ++ " iterations")

/-- The outcome of a loop whose passes ended so. -/
def loopOutcome (e : Engine) : Except Cause (Except Outcome Nat) → Outcome
  | .ok (.ok n) => executed n
  | .ok (.error o) => o
  | .error c => e.failure (some "loop") c

theorem executed_inj {m n : Nat} (h : executed m = executed n) : m = n := by
  have hmessage := congrArg (fun o => o.message.toList) h
  simp only [executed, Outcome.success, String.toList_append] at hmessage
  have hrepr := List.append_cancel_left (List.append_cancel_right hmessage)
  have hdigits : Nat.toDigits 10 m = Nat.toDigits 10 n :=
    Nat.toList_repr.symm.trans (hrepr.trans Nat.toList_repr)
  rw [← @Nat.ofDigitChars_ten_toDigits m, hdigits, Nat.ofDigitChars_ten_toDigits]

namespace Loops

variable {store : Store} {mode : LoopMode}

theorem read (h : e.Loops store s s' ts limit) (hm : Action.loopMode s' = .ok mode) :
    ∃ own, Action.read .loop s' = .ok (.iterate mode own) ∧
      own.getD e.config.maxLoopIterations = limit := by
  obtain ⟨a, ha⟩ := h.accepted.read
  obtain ⟨mode', own, rfl, hown, hm', -⟩ := Action.read_loop ha
  obtain rfl : mode = mode' := Except.ok.inj (hm.symm.trans hm')
  have hl := h.limit
  rw [hown] at hl
  exact ⟨own, ha, Except.ok.inj hl⟩

theorem holding (h : e.Loops store s s' ts limit) (hc : s.get? "condition" = some condition) :
    Action.loopMode s' = .ok (.holding condition) := by
  have hc' : s'.get? "condition" = some condition := by
    rw [(ready_eq_ok.mp h.accepted.ready).1.get?_raw (by decide) (by decide) (by decide), hc]
  obtain ⟨a, ha⟩ := h.accepted.read
  obtain ⟨mode, own, -, -, hm, -⟩ := Action.read_loop ha
  rw [hm, Action.loopMode_holding hm hc']

end Loops

/-- Dispatching a loop step is making its passes; the outcome goes into the history. -/
theorem run_dispatch_loop {mode : LoopMode} (hr : r.cancelled = false)
    (h : e.Loops r.store s s' ts limit) (hm : Action.loopMode s' = .ok mode) :
    (e.dispatch s).run (.answering answer) r w =
      let (result, r, w) :=
        (e.passes mode limit (e.runSteps ts) 0 limit).run.run (.answering answer) r w
      (e.loopOutcome result, r.log ⟨"loop", e.loopOutcome result⟩, w) := by
  obtain ⟨own, hread, hown⟩ := h.read hm
  have hhandle : (e.handle (e.runField s.fields) (.ofKind .loop) s').run.run (.answering answer)
      r w =
      match (e.passes mode limit (e.runSteps ts) 0 limit).run.run (.answering answer) r w with
      | (.ok (.ok n), r, w) => (.ok (executed n), r, w)
      | (.ok (.error o), r, w) => (.ok o, r, w)
      | (.error c, r, w) => (.error c, r, w) := by
    -- The mode and the limit that the step is read with are those of the loop.
    show (Attempt.settled (Action.read .loop s') >>= fun a => _).run.run _ _ _ = _
    rw [Attempt.run_bind, Attempt.run_settled, hread]
    dsimp only [carryOut]
    rw [Attempt.run_bind, runField_children h.body, hown]
    obtain ⟨result, r', w'⟩ :=
      (e.passes mode limit (e.runSteps ts) 0 limit).run.run (.answering answer) r w
    rcases result with c | o | n
    · rfl
    · rfl
    · rfl
  rw [run_dispatch_prepared hr h.accepted.action h.accepted.ready, hhandle]
  obtain ⟨result, r', w'⟩ :=
    (e.passes mode limit (e.runSteps ts) 0 limit).run.run (.answering answer) r w
  rcases result with c | o | n
  · rfl
  · rfl
  · rfl

/-! ## Single passes -/

section Pass

variable {body : Process (Except Outcome Nat)} (done left : Nat)

/-- Where no pass is left, the condition is tested once more. -/
theorem run_passes_holding_zero (hr : r.cancelled = false) :
    (e.passes (.holding condition) limit body done 0).run.run (.answering answer) r w =
      match e.test condition r.store with
      | .error c => (.error c, r, w)
      | .ok true => (.error (.loopLimitExceeded limit), r, w)
      | .ok false => (.ok (.ok done), r, w) := by
  rw [passes, Attempt.run_bind, run_mayPass _ _ hr]
  cases e.test condition r.store with
  | error c => rfl
  | ok b =>
    cases b with
    | true => rfl
    | false => rfl

theorem run_passes_holding_succ (hr : r.cancelled = false) :
    (e.passes (.holding condition) limit body done (left + 1)).run.run (.answering answer) r w =
      match e.test condition r.store with
      | .error c => (.error c, r, w)
      | .ok false => (.ok (.ok done), r, w)
      | .ok true =>
        match body.run (.answering answer) r w with
        | (.error o, r, w) => (.ok (.error o), r, w)
        | (.ok _, r, w) =>
          (e.passes (.holding condition) limit body (done + 1) left).run.run (.answering answer)
            r w := by
  rw [passes, Attempt.run_bind, run_mayPass _ _ hr]
  cases e.test condition r.store with
  | error c => rfl
  | ok b =>
    cases b with
    | false => rfl
    | true =>
      show (ExceptT.lift body >>= fun result => _).run.run _ _ _ = _
      rw [Attempt.run_bind, Attempt.run_lift]
      obtain ⟨result, r', w'⟩ := body.run (.answering answer) r w
      cases result with
      | error o => rfl
      | ok n => rfl

end Pass

/-! ## The states between the passes -/

/-- The state of the run and of what is outside it after so many runs of the steps, if all of them
went well. -/
def afterPasses (e : Engine) (answer : (w : Wait) → σ → w.Answer × σ) (ts : List Step) (r : Run)
    (w : σ) : Nat → Option (Run × σ)
  | 0 => some (r, w)
  | k + 1 =>
    (afterPasses e answer ts r w k).bind fun t =>
      match (e.runSteps ts).run (.answering answer) t.1 t.2 with
      | (.ok _, t) => some t
      | (.error _, _) => none

/-- The condition comes out so after so many passes. -/
def TestsAs (e : Engine) (answer : (w : Wait) → σ → w.Answer × σ) (ts : List Step)
    (condition : Value) (r : Run) (w : σ) (k : Nat) (b : Bool) : Prop :=
  ∃ t, e.afterPasses answer ts r w k = some t ∧ e.test condition t.1.store = .ok b

variable {k : Nat} {t : Run × σ}

theorem afterPasses_succ_eq_some {t' : Run × σ} :
    e.afterPasses answer ts r w (k + 1) = some t' ↔
      ∃ t n, e.afterPasses answer ts r w k = some t ∧
        (e.runSteps ts).run (.answering answer) t.1 t.2 = (.ok n, t') := by
  rw [afterPasses, Option.bind_eq_some_iff]
  refine exists_congr fun t => ?_
  rw [exists_and_left]
  refine and_congr_right fun _ => ?_
  obtain ⟨result, t''⟩ := (e.runSteps ts).run (.answering answer) t.1 t.2
  cases result with
  | ok n => simp only [Option.some.injEq, Prod.mk.injEq, Except.ok.injEq, exists_eq_left']
  | error o => simp

/-- A state that was reached was reached by way of all states before it. -/
theorem afterPasses_of_le {j : Nat} (h : e.afterPasses answer ts r w k = some t) (hj : j ≤ k) :
    ∃ t', e.afterPasses answer ts r w j = some t' := by
  induction k generalizing t with
  | zero =>
    obtain rfl := Nat.le_zero.mp hj
    exact ⟨t, h⟩
  | succ k ih =>
    rcases Nat.le_succ_iff.mp hj with hj | rfl
    · obtain ⟨t', _, ht', -⟩ := afterPasses_succ_eq_some.mp h
      exact ih ht' hj
    · exact ⟨t, h⟩

theorem cancelled_afterPasses (h : e.afterPasses answer ts r w k = some t) :
    t.1.cancelled = r.cancelled := by
  induction k generalizing t with
  | zero =>
    cases h
    rfl
  | succ k ih =>
    obtain ⟨t', n, ht', hrun⟩ := afterPasses_succ_eq_some.mp h
    rw [← ih ht', ← Process.cancelled_run answer (e.runSteps ts) t'.1 t'.2, hrun]

/-- As long as the tests hold, the loop goes from one of the states to the next. -/
theorem run_passes_skip {left total : Nat} (htotal : k + left = total) (hr : r.cancelled = false)
    (hk : ∀ j < k, e.TestsAs answer ts condition r w j true)
    (ht : e.afterPasses answer ts r w k = some t) :
    (e.passes (.holding condition) limit (e.runSteps ts) 0 total).run.run (.answering answer) r w =
      (e.passes (.holding condition) limit (e.runSteps ts) k left).run.run (.answering answer)
        t.1 t.2 := by
  induction k generalizing t left with
  | zero =>
    cases ht
    rw [← htotal, Nat.zero_add]
  | succ k ih =>
    obtain ⟨t', n, ht', hrun⟩ := afterPasses_succ_eq_some.mp ht
    obtain ⟨t'', ht'', htest⟩ := hk k (Nat.lt_succ_self k)
    obtain rfl : t' = t'' := Option.some.inj (ht'.symm.trans ht'')
    have htotal' : k + (left + 1) = total := by omega
    rw [ih htotal' (fun j hj => hk j (Nat.lt_succ_of_lt hj)) ht',
      run_passes_holding_succ _ _ ((cancelled_afterPasses ht').trans hr), htest, hrun]

/-! ## The ends of a loop -/

/-- The tests hold up to the limit, or there is a first one that does not hold, or fails, or holds
before a pass that fails. -/
theorem tests_hold_or_end (limit : Nat) :
    (∀ k ≤ limit, e.TestsAs answer ts condition r w k true) ∨
      ∃ k ≤ limit, (∀ j < k, e.TestsAs answer ts condition r w j true) ∧
        ∃ t, e.afterPasses answer ts r w k = some t ∧
          (e.test condition t.1.store = .ok false ∨
            (∃ c, e.test condition t.1.store = .error c) ∨
            k < limit ∧ e.test condition t.1.store = .ok true ∧ ∃ o t',
              (e.runSteps ts).run (.answering answer) t.1 t.2 = (.error o, t')) := by
  -- What the test in the state after `k` passes means, once all tests before it have held.
  have htest (k : Nat) (t : Run × σ) (ht : e.afterPasses answer ts r w k = some t)
      (hk : ∀ j < k, e.TestsAs answer ts condition r w j true) :
      (∀ j ≤ k, e.TestsAs answer ts condition r w j true) ∨
        e.test condition t.1.store = .ok false ∨ ∃ c, e.test condition t.1.store = .error c := by
    cases hx : e.test condition t.1.store with
    | error c => exact .inr (.inr ⟨c, rfl⟩)
    | ok b =>
      cases b with
      | false => exact .inr (.inl rfl)
      | true =>
        refine .inl fun j hj => ?_
        rcases Nat.lt_or_eq_of_le hj with hj | rfl
        · exact hk j hj
        · exact ⟨t, ht, hx⟩
  induction limit with
  | zero =>
    rcases htest 0 (r, w) rfl (fun j hj => absurd hj j.not_lt_zero) with h | h | h
    · exact .inl h
    · exact .inr ⟨0, Nat.le_refl _, fun j hj => absurd hj j.not_lt_zero, (r, w), rfl, .inl h⟩
    · exact .inr ⟨0, Nat.le_refl _, fun j hj => absurd hj j.not_lt_zero, (r, w), rfl, .inr (.inl h)⟩
  | succ limit ih =>
    rcases ih with hall | ⟨k, hk, hbefore, t, ht, hend⟩
    · -- All tests up to here hold; whether there is one more depends on the pass behind the last.
      have hbefore : ∀ j < limit + 1, e.TestsAs answer ts condition r w j true :=
        fun j hj => hall j (Nat.le_of_lt_succ hj)
      obtain ⟨t, ht, hx⟩ := hall limit (Nat.le_refl _)
      rcases hrun : (e.runSteps ts).run (.answering answer) t.1 t.2 with ⟨result, t'⟩
      cases result with
      | error o =>
        exact .inr ⟨limit, limit.le_succ, fun j hj => hbefore j (Nat.lt_succ_of_lt hj), t, ht,
          .inr (.inr ⟨limit.lt_succ_self, hx, o, t', hrun⟩)⟩
      | ok n =>
        have ht' := afterPasses_succ_eq_some.mpr ⟨t, n, ht, hrun⟩
        rcases htest (limit + 1) t' ht' hbefore with h | h | h
        · exact .inl h
        · exact .inr ⟨limit + 1, Nat.le_refl _, hbefore, t', ht', .inl h⟩
        · exact .inr ⟨limit + 1, Nat.le_refl _, hbefore, t', ht', .inr (.inl h)⟩
    · -- The loop has ended before, and a higher limit does not matter.
      exact .inr ⟨k, Nat.le_succ_of_le hk, hbefore, t, ht,
        hend.imp_right (Or.imp_right (And.imp_left Nat.lt_succ_of_lt))⟩

/-- Dispatching the step has this outcome and ends in this state, but for the entry in the
history. -/
def EndsAs (e : Engine) (answer : (w : Wait) → σ → w.Answer × σ) (s : Step) (r : Run) (w : σ)
    (o : Outcome) (t : Run × σ) : Prop :=
  (e.dispatch s).run (.answering answer) r w = (o, t.1.log ⟨"loop", o⟩, t.2)

theorem EndsAs.outcome_eq {o : Outcome} (h : e.EndsAs answer s r w o t) :
    ((e.dispatch s).run (.answering answer) r w).1 = o := congrArg Prod.fst h

section Ends

variable (hr : r.cancelled = false) (h : e.Loops r.store s s' ts limit)
  (hc : s.get? "condition" = some condition)

include hr h hc

/-- A loop step as its passes from one of the states on. -/
theorem run_dispatch_holding (hbefore : ∀ j < k, e.TestsAs answer ts condition r w j true)
    (ht : e.afterPasses answer ts r w k = some t) (hk : k ≤ limit) :
    (e.dispatch s).run (.answering answer) r w =
      let (result, r, w) := (e.passes (.holding condition) limit (e.runSteps ts) k
        (limit - k)).run.run (.answering answer) t.1 t.2
      (e.loopOutcome result, r.log ⟨"loop", e.loopOutcome result⟩, w) := by
  rw [run_dispatch_loop hr h (h.holding hc),
    run_passes_skip (Nat.add_sub_cancel' hk) hr hbefore ht]

theorem endsAs_executed (hbefore : ∀ j < k, e.TestsAs answer ts condition r w j true)
    (ht : e.afterPasses answer ts r w k = some t) (hk : k ≤ limit)
    (hx : e.test condition t.1.store = .ok false) : e.EndsAs answer s r w (executed k) t := by
  have ht' := (cancelled_afterPasses ht).trans hr
  rw [EndsAs, run_dispatch_holding hr h hc hbefore ht hk]
  cases limit - k with
  | zero => rw [run_passes_holding_zero _ ht', hx]; rfl
  | succ left => rw [run_passes_holding_succ _ _ ht', hx]; rfl

theorem endsAs_failure {c : Cause} (hbefore : ∀ j < k, e.TestsAs answer ts condition r w j true)
    (ht : e.afterPasses answer ts r w k = some t) (hk : k ≤ limit)
    (hx : e.test condition t.1.store = .error c) :
    e.EndsAs answer s r w (e.failure (some "loop") c) t := by
  have ht' := (cancelled_afterPasses ht).trans hr
  rw [EndsAs, run_dispatch_holding hr h hc hbefore ht hk]
  cases limit - k with
  | zero => rw [run_passes_holding_zero _ ht', hx]; rfl
  | succ left => rw [run_passes_holding_succ _ _ ht', hx]; rfl

/-- The outcome of a step that fails in a pass is handed on as it is. -/
theorem endsAs_pass {o : Outcome} {t' : Run × σ}
    (hbefore : ∀ j < k, e.TestsAs answer ts condition r w j true)
    (ht : e.afterPasses answer ts r w k = some t) (hk : k < limit)
    (hx : e.test condition t.1.store = .ok true)
    (hrun : (e.runSteps ts).run (.answering answer) t.1 t.2 = (.error o, t')) :
    e.EndsAs answer s r w o t' := by
  have ht' := (cancelled_afterPasses ht).trans hr
  obtain ⟨left, hleft⟩ := Nat.exists_eq_succ_of_ne_zero (Nat.sub_ne_zero_of_lt hk)
  rw [EndsAs, run_dispatch_holding hr h hc hbefore ht (Nat.le_of_lt hk), hleft,
    run_passes_holding_succ _ _ ht', hx, hrun]
  rfl

theorem endsAs_exceeded (hall : ∀ k ≤ limit, e.TestsAs answer ts condition r w k true) :
    ∃ t, e.afterPasses answer ts r w limit = some t ∧
      e.EndsAs answer s r w (e.failure (some "loop") (.loopLimitExceeded limit)) t := by
  obtain ⟨t, ht, hx⟩ := hall limit (Nat.le_refl _)
  refine ⟨t, ht, ?_⟩
  have hbefore : ∀ j < limit, e.TestsAs answer ts condition r w j true :=
    fun j hj => hall j (Nat.le_of_lt hj)
  rw [EndsAs, run_dispatch_holding hr h hc hbefore ht (Nat.le_refl _), Nat.sub_self,
    run_passes_holding_zero _ ((cancelled_afterPasses ht).trans hr), hx]
  rfl

end Ends

/-- A test fails with what a text that is evaluated can fail with, and never with the limit. -/
theorem test_failsOnly (condition : Value) (store : Store) :
    Except.FailsOnly Cause.OfEvaluation (e.test condition store) :=
  .bind (Template.resolve_failsOnly _ _ _) fun v _ => conditionHolds_failsOnly v

theorem failure_test_ne {c : Cause} {store : Store} (hx : e.test condition store = .error c) :
    e.failure (some "loop") c ≠ e.failure (some "loop") (.loopLimitExceeded limit) := by
  intro heq
  have hcategory : c.category = .loopLimitExceeded :=
    Option.some.inj (congrArg Outcome.category heq)
  have hc := test_failsOnly condition store c hx
  cases c with
  | loopLimitExceeded => exact hc
  | _ => cases hcategory

section Iff

variable (hr : r.cancelled = false) (h : e.Loops r.store s s' ts limit)
  (hc : s.get? "condition" = some condition)

include hr h hc

/-- Only a loop that ends with a test that does not hold ends well. -/
theorem outcome_eq_executed_iff (n : Nat) :
    ((e.dispatch s).run (.answering answer) r w).1 = executed n ↔
      n ≤ limit ∧ (∀ k < n, e.TestsAs answer ts condition r w k true) ∧
        e.TestsAs answer ts condition r w n false := by
  refine ⟨fun ho => ?_, fun ⟨hn, hbefore, t, ht, hx⟩ =>
    (endsAs_executed hr h hc hbefore ht hn hx).outcome_eq⟩
  have hsuccess {o : Outcome} {t' : Run × σ} (hend : e.EndsAs answer s r w o t') :
      o.isError = false := by
    rw [← hend.outcome_eq, ho]
    rfl
  rcases tests_hold_or_end limit with
    hall | ⟨k, hk, hbefore, t', ht', hx | ⟨c, hx⟩ | ⟨hlt, hx, o, t'', hrun⟩⟩
  · obtain ⟨t', -, hend⟩ := endsAs_exceeded hr h hc hall
    cases hsuccess hend
  · have hend := endsAs_executed hr h hc hbefore ht' hk hx
    obtain rfl : n = k := executed_inj (ho.symm.trans hend.outcome_eq)
    exact ⟨hk, hbefore, t', ht', hx⟩
  · cases hsuccess (endsAs_failure hr h hc hbefore ht' hk hx)
  · have hfalse := hsuccess (endsAs_pass hr h hc hbefore ht' hlt hx hrun)
    rw [isError_of_run_runItems hrun] at hfalse
    cases hfalse

/-- A step in a pass may fail with a limit of its own, but then there are not so many passes. -/
theorem outcome_eq_exceeded_iff :
    ((∃ t, e.afterPasses answer ts r w limit = some t) ∧
      ((e.dispatch s).run (.answering answer) r w).1 =
        e.failure (some "loop") (.loopLimitExceeded limit)) ↔
      ∀ k ≤ limit, e.TestsAs answer ts condition r w k true := by
  constructor
  · rintro ⟨⟨t, ht⟩, ho⟩
    rcases tests_hold_or_end limit with
      hall | ⟨k, hk, hbefore, t', ht', hx | ⟨c, hx⟩ | ⟨hlt, -, o, t'', hrun⟩⟩
    · exact hall
    · have hend := endsAs_executed hr h hc hbefore ht' hk hx
      cases congrArg Outcome.verdict (ho.symm.trans hend.outcome_eq)
    · have hend := endsAs_failure hr h hc hbefore ht' hk hx
      exact absurd (hend.outcome_eq.symm.trans ho) (failure_test_ne hx)
    · -- After a pass that fails there is no state.
      obtain ⟨t₁, ht₁⟩ := afterPasses_of_le ht (Nat.succ_le_of_lt hlt)
      obtain ⟨t₂, n, ht₂, hrun'⟩ := afterPasses_succ_eq_some.mp ht₁
      obtain rfl : t' = t₂ := Option.some.inj (ht'.symm.trans ht₂)
      rw [hrun] at hrun'
      cases hrun'
  · intro hall
    obtain ⟨t, ht, hend⟩ := endsAs_exceeded hr h hc hall
    exact ⟨⟨t, ht⟩, hend.outcome_eq⟩

end Iff

/-- The states between the passes of a loop are those its steps lead to one run after the other. The
loop ends well after `n` passes exactly if `n` is within the limit and the condition, which is
resolved anew for every test, holds in all states before the `n`th and not in that one; and then it
ends in that state. It fails with its limit after as many passes as that allows exactly if the
condition holds in all states up to the one after them; and then it ends in that one. Otherwise it
fails with the first test that fails, in the state the test was made in, or with the first pass that
fails, whose outcome it hands on as it is. -/
theorem loop_runs_while_holding (e : Engine) (answer : (w : Wait) → σ → w.Answer × σ) (r : Run)
    (w : σ) {s s' : Step} {ts : List Step} {limit : Nat} {condition : Value}
    (hr : r.cancelled = false) (h : e.Loops r.store s s' ts limit)
    (hc : s.get? "condition" = some condition) :
    let after := e.afterPasses answer ts r w
    let tests := e.TestsAs answer ts condition r w
    let outcome := ((e.dispatch s).run (.answering answer) r w).1
    let ends := e.EndsAs answer s r w
    let exceeded := e.failure (some "loop") (.loopLimitExceeded limit)
    (∀ n, (outcome = executed n ↔ n ≤ limit ∧ (∀ k < n, tests k true) ∧ tests n false) ∧
      (outcome = executed n → ∃ t, after n = some t ∧ ends (executed n) t)) ∧
    (((∃ t, after limit = some t) ∧ outcome = exceeded ↔ ∀ k ≤ limit, tests k true) ∧
      ((∀ k ≤ limit, tests k true) → ∃ t, after limit = some t ∧ ends exceeded t)) ∧
    ((¬∃ n ≤ limit, (∀ k < n, tests k true) ∧ tests n false) → (¬∀ k ≤ limit, tests k true) →
      ∃ k ≤ limit, (∀ j < k, tests j true) ∧ ∃ t, after k = some t ∧
        ((∃ c, e.test condition t.1.store = .error c ∧ ends (e.failure (some "loop") c) t) ∨
          k < limit ∧ e.test condition t.1.store = .ok true ∧ ∃ o t', o.isError = true ∧
            (e.runSteps ts).run (.answering answer) t.1 t.2 = (.error o, t') ∧ ends o t')) := by
  intro after tests outcome ends exceeded
  refine ⟨fun n => ⟨outcome_eq_executed_iff hr h hc n, fun ho => ?_⟩,
    ⟨outcome_eq_exceeded_iff hr h hc, endsAs_exceeded hr h hc⟩, fun hfalse hall => ?_⟩
  · -- Ends well: in the state of the first test that does not hold.
    obtain ⟨hn, hbefore, t, ht, hx⟩ := (outcome_eq_executed_iff hr h hc n).mp ho
    exact ⟨t, ht, endsAs_executed hr h hc hbefore ht hn hx⟩
  · rcases tests_hold_or_end limit with
      hall' | ⟨k, hk, hbefore, t, ht, hx | ⟨c, hx⟩ | ⟨hlt, hx, o, t', hrun⟩⟩
    · exact absurd hall' hall
    · exact absurd ⟨k, hk, hbefore, t, ht, hx⟩ hfalse
    · exact ⟨k, hk, hbefore, t, ht, .inl ⟨c, hx, endsAs_failure hr h hc hbefore ht hk hx⟩⟩
    · exact ⟨k, hk, hbefore, t, ht, .inr ⟨hlt, hx, o, t', isError_of_run_runItems hrun, hrun,
        endsAs_pass hr h hc hbefore ht hlt hx hrun⟩⟩

/-- A loop whose condition always holds makes as many passes as its limit allows, and fails then. -/
theorem loop_runs_while_holding_twice :
    let e : Engine := { config := { maxLoopIterations := 2 } }
    let r := Run.create "twice" { logsHistory := true } e.config
    let choice : Step := ⟨[("action", .str "condition"), ("condition", .bool true),
      ("if_true", .list []), ("if_false", .list [])]⟩
    let s : Step := ⟨[("action", .str "loop"), ("condition", .bool true),
      ("loop_steps", .list [choice.toValue])]⟩
    let o := e.failure (some "loop") (.loopLimitExceeded 2)
    r.cancelled = false ∧ e.Loops r.store s s [choice] 2 ∧
      s.get? "condition" = some (.bool true) ∧
      (e.dispatch s).run (.answering Wait.quiet) r () =
        (o, ((r.log ⟨"condition", met⟩).log ⟨"condition", met⟩).log ⟨"loop", o⟩, ()) := by
  intro e r choice s o
  have hloops : e.Loops r.store s s [choice] 2 := ⟨⟨rfl, rfl, _, rfl⟩, rfl, rfl⟩
  have hafter : e.afterPasses Wait.quiet [choice] r () 2 =
      some ((r.log ⟨"condition", met⟩).log ⟨"condition", met⟩, ()) := rfl
  have htests : ∀ k ≤ 2, e.TestsAs Wait.quiet [choice] (.bool true) r () k true := by
    intro k hk
    obtain ⟨t, ht⟩ := afterPasses_of_le hafter hk
    exact ⟨t, ht, rfl⟩
  obtain ⟨-, ⟨-, hlimit⟩, -⟩ := loop_runs_while_holding e Wait.quiet r () rfl hloops rfl
  obtain ⟨t, ht, hends⟩ := hlimit htests
  obtain rfl := Option.some.inj (ht.symm.trans hafter)
  exact ⟨rfl, hloops, rfl, hends⟩

end Stepwise.Engine
