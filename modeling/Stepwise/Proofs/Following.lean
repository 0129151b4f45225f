import Stepwise.Proofs.Flushing
import Stepwise.Proofs.Sharing

/-!
# Following the output of a shared run

A consumer follows the output of a run that is shared: whenever it asks a question, others may have
printed, cancelled the run, cleared its output or ended it, and it is not told who comes when.

* `Shared.printed`, `Shared.Trace.sent`: what is printed is what subscribers can receive.
* `Following.Event`, `Following.Trace`: what happens while a consumer follows, and in which order.
* `Following.Trace.told`: what the consumer is told fits to what is printed after the call.
* `Following.Trace.drained`: nothing is left when it has returned because the run has ended.
-/

namespace Stepwise

/-! ## What is printed -/

/-- How many lines are kept for those who follow the output of a run. -/
def Config.streamRoom (c : Config) : Nat := (max c.streamCapacity 1).nextPowerOfTwo

namespace Shared

/-- The lines that are printed by these events. -/
def printed {ι : Type} (es : List (Event ι)) : List String :=
  es.filterMap fun
    | .call _ (.access (.print line) _) => some line
    | _ => none

variable {ι : Type} [DecidableEq ι] {es : List (Event ι)} {event : Event ι} {s s' : Shared ι}
  {name : String} {options : Run.Options} {config : Config} {values : Entries Value}
  {e : ι → Engine} {script : ι → Script} {room : Nat} {all : List String}

omit [DecidableEq ι] in
theorem printed_append (es es' : List (Event ι)) :
    printed (es ++ es') = printed es ++ printed es' := List.filterMap_append ..

/-- Subscribers can receive what is printed, and nothing else. -/
theorem Happens.sent (h : Happens s event s') (hs : s.run.output.Sent room all) :
    s'.run.output.Sent room (all ++ printed [event]) := by
  have hsame : s.run.output.Sent room (all ++ []) := (List.append_nil all).symm ▸ hs
  cases h with
  | @access i c next hi =>
    cases c with
    | print line => exact hs.push line
    | log entry =>
      show (s.run.log entry).output.Sent room (all ++ [])
      -- The history and the status are no output.
      unfold Run.log
      split
      · exact hsame
      · exact hsame
    | enter index =>
      show (s.run.enter index).output.Sent room (all ++ [])
      unfold Run.enter
      split
      · exact hsame
      · exact hsame
    | launch | start | announce | blame | poll | read | assign | record => exact hsame
  | clearOutput => exact hsame.clear
  | wait | cancel | clearHistory | seeStatus | seeError => exact hsame

theorem Trace.sent (h : Trace (fresh name options config values e script) es s) :
    s.run.output.Sent config.streamRoom (printed es) := by
  induction h with
  | start => exact Output.sent_empty config.outputCapacity config.streamCapacity
  | snoc _ hstep ih =>
    rw [printed_append]
    exact hstep.sent ih

/-- Nothing is printed when the run has ended. -/
theorem Trace.printed_eq_nil (h : Trace (fresh name options config values e script) es s)
    (hr : s.run.status.isTerminal = true) (hstep : Happens s event s') : printed [event] = [] := by
  cases hstep with
  | @access i c next hi =>
    cases c with
    | print line =>
      have hrun := h.coupled.ended (h.allows hi) hr
      have hsent : s.run.output.sent + 1 = s.run.output.sent :=
        congrArg (fun r : Run => r.output.sent) hrun
      exact absurd hsent (Nat.succ_ne_self _)
    | launch | start | announce | enter | blame | poll | read | assign | record | log => rfl
  | wait | cancel | clearOutput | clearHistory | seeStatus | seeError => rfl

end Shared

/-! ## Events while the consumer follows -/

/-- A run that is shared, and a consumer who follows its output. -/
structure Following (ι : Type) where
  shared : Shared ι
  flush : Flush

namespace Following

/-- The consumer begins to follow. -/
def call {ι : Type} (s : Shared ι) : Following ι := ⟨s, .call s.run.output⟩

/-- How many lines are printed that the consumer has not read. -/
def behind {ι : Type} (m : Following ι) : Nat := m.shared.run.output.sent - m.flush.position

/-- What happens at one moment: something to the run, or the consumer asks its next question, and it
is time to stop or not. -/
inductive Event (ι : Type) where
  | other (event : Shared.Event ι)
  | turn (late : Bool)

/-- What happens to the run. -/
def Event.other? {ι : Type} : Event ι → Option (Shared.Event ι)
  | other event => some event
  | turn _ => none

/-- It is the consumer's turn. -/
def Event.isTurn {ι : Type} : Event ι → Bool
  | other _ => false
  | turn _ => true

/-- The lines that are printed by these events. -/
def printed {ι : Type} (es : List (Event ι)) : List String :=
  Shared.printed (es.filterMap Event.other?)

variable {ι : Type} [DecidableEq ι]

/-- The event leads from one moment to the next. -/
inductive Happens : Following ι → Event ι → Following ι → Prop
  | other {m : Following ι} {event : Shared.Event ι} {s : Shared ι} :
      Shared.Happens m.shared event s → Happens m (.other event) ⟨s, m.flush⟩
  | turn {m : Following ι} (late : Bool) : Happens m (.turn late)
      ⟨m.shared, m.flush.step m.shared.run.output m.shared.run.status late⟩

/-- The events led from the beginning to this moment. -/
inductive Trace (start : Following ι) : List (Event ι) → Following ι → Prop
  | start : Trace start [] start
  | snoc {es : List (Event ι)} {event : Event ι} {m m' : Following ι} : Trace start es m →
      Happens m event m' → Trace start (es ++ [event]) m'

variable {es later : List (Event ι)} {event : Event ι} {start m m' : Following ι}

theorem Trace.shared (h : Trace start es m) :
    Shared.Trace start.shared (es.filterMap Event.other?) m.shared := by
  induction h with
  | start => exact .start
  | snoc _ hstep ih =>
    rw [List.filterMap_append]
    cases hstep with
    | other hother => exact ih.snoc hother
    | turn => exact (List.append_nil (List.filterMap Event.other? _)).symm ▸ ih

theorem Trace.trans (h : Trace start es m) (h' : Trace m later m') :
    Trace start (es ++ later) m' := by
  induction h' with
  | start => rwa [List.append_nil]
  | snoc _ hstep ih =>
    rw [← List.append_assoc]
    exact .snoc ih hstep

omit [DecidableEq ι] in
theorem printed_append (es es' : List (Event ι)) :
    printed (es ++ es') = printed es ++ printed es' := by
  rw [printed, List.filterMap_append]
  exact Shared.printed_append _ _

section Fresh

variable {name : String} {options : Run.Options} {config : Config} {values : Entries Value}
  {e : ι → Engine} {script : ι → Script} {before : List (Shared.Event ι)} {s : Shared ι} {n : Nat}

theorem Trace.counted (h : Trace (call s) es m) : m.flush.Counted := by
  induction h with
  | start => rfl
  | snoc _ hstep ih =>
    cases hstep with
    | other => exact ih
    | turn late => exact ih.step _ _ late

/-- It returned before the run had ended only because it was time to stop. -/
theorem Trace.early (h : Trace (call s) es m) (hstage : m.flush.stage = .returned n false) :
    .turn true ∈ es := by
  induction h with
  | start => cases hstage
  | snoc _ hstep ih =>
    cases hstep with
    | other => exact List.mem_append_left _ (ih hstage)
    | turn late =>
      rcases Flush.step_early hstage with hbefore | rfl
      · exact List.mem_append_left _ (ih hbefore)
      · exact List.mem_append_right _ List.mem_cons_self

variable (h₀ : Shared.Trace (Shared.fresh name options config values e script) before s)

include h₀

theorem Trace.reached (h : Trace (call s) es m) :
    Shared.Trace (Shared.fresh name options config values e script)
      (before ++ es.filterMap Event.other?) m.shared :=
  h₀.trans h.shared

theorem Trace.sent (h : Trace (call s) es m) :
    m.shared.run.output.Sent config.streamRoom (Shared.printed before ++ printed es) := by
  have hsent := (h.reached h₀).sent
  rwa [Shared.printed_append] at hsent

/-- The consumer is told about what is printed after the call. -/
theorem Trace.told (h : Trace (call s) es m) :
    m.flush.Told config.streamRoom (Shared.printed before) (printed es) := by
  induction h with
  | start => exact Flush.told_call h₀.sent
  | snoc h hstep ih =>
    rw [printed_append]
    cases hstep with
    | other => exact ih.print _
    | turn late =>
      rw [show printed [.turn late] = [] from rfl, List.append_nil]
      exact ih.step (h.sent h₀) _ late

/-- What the consumer knows is so. -/
theorem Trace.known (h : Trace (call s) es m) (hknows : m.flush.stage.Knows) :
    m.shared.run.status.isTerminal = true := by
  induction h with
  | start => exact hknows.elim
  | @snoc es event m m' h hstep ih =>
    cases hstep with
    | other hother =>
      rw [((h.reached h₀).ended (ih hknows) (.snoc .start hother)).1]
      exact ih hknows
    | turn late =>
      rcases Flush.step_knows hknows with hbefore | hterminal
      · exact ih hbefore
      · exact hterminal

/-- When it has returned because the run has ended, nothing is left. -/
theorem Trace.drained (h : Trace (call s) es m) (hstage : m.flush.stage = .returned n true) :
    (Shared.printed before ++ printed es).drop m.flush.position = [] := by
  induction h with
  | start => cases hstage
  | @snoc es event m m' h hstep ih =>
    rw [printed_append]
    cases hstep with
    | other hother =>
      have hterminal := h.known h₀ (hstage ▸ trivial)
      rw [show printed [.other _] = [] from (h.reached h₀).printed_eq_nil hterminal hother,
        List.append_nil]
      exact ih hstage
    | turn late =>
      rw [show printed [.turn late] = [] from rfl, List.append_nil]
      rcases Flush.step_returned hstage with hsame | ⟨hnext, hposition⟩
      · dsimp only at hstage ⊢
        rw [hsame] at hstage ⊢
        exact ih hstage
      · dsimp only
        rw [hposition]
        exact (Flush.next_eq_none (h.sent h₀)).mp hnext

/-- Nothing is skipped as long as the consumer is never too far behind. -/
theorem Trace.unbroken (h : Trace (call s) es m)
    (hkept : ∀ {es' : List (Event ι)} {m' : Following ι}, es' <+: es → Trace (call s) es' m' →
      m'.behind ≤ config.streamRoom) :
    m.flush.received = m.flush.consumed.map .line := by
  induction h with
  | start => rfl
  | @snoc es event m m' h hstep ih =>
    have hbefore := ih fun hes' => hkept (hes'.trans (List.prefix_append _ _))
    cases hstep with
    | other => exact hbefore
    | turn late =>
      refine Flush.step_unbroken (h.sent h₀) ?_ hbefore _ late
      rw [List.length_drop, ← (h.sent h₀).sent]
      exact hkept (List.prefix_append _ _) h

/-- Once the run has ended, every turn brings the consumer nearer to its return. -/
theorem Trace.rank_le (h : Trace (call s) es m) (hr : m.shared.run.status.isTerminal = true)
    (h' : Trace m later m') :
    m'.flush.stage.rank m'.behind ≤ m.flush.stage.rank m.behind - later.countP Event.isTurn := by
  induction h' with
  | start => exact Nat.le_refl _
  | @snoc later event m₁ m₂ h' hstep ih =>
    have h₁ := h.trans h'
    have hr₁ : m₁.shared.run.status.isTerminal = true :=
      ((h.reached h₀).ended hr h'.shared).1 ▸ hr
    rw [List.countP_append]
    cases hstep with
    -- Nobody prints after the end, so what is left to receive does not grow.
    | @other event s₂ hother =>
      have hsent : s₂.run.output.sent = m₁.shared.run.output.sent := by
        have hmore := hother.sent (h₁.sent h₀)
        rw [(h₁.reached h₀).printed_eq_nil hr₁ hother, List.append_nil] at hmore
        exact hmore.sent.trans (h₁.sent h₀).sent.symm
      show m₁.flush.stage.rank (s₂.run.output.sent - m₁.flush.position) ≤ _
      rw [hsent]
      exact ih
    | turn late =>
      -- The turn itself lowers the rank by one.
      have hstep := Flush.step_rank (h₁.sent h₀) m₁.flush hr₁ late
      show _ ≤ m.flush.stage.rank m.behind - (later.countP Event.isTurn + 1)
      exact hstep.trans (Nat.sub_le_sub_right ih 1)

/-- It returns after so many turns. -/
theorem Trace.returns (h : Trace (call s) es m) (hr : m.shared.run.status.isTerminal = true)
    (h' : Trace m later m') (hturns : m.behind + 4 ≤ later.countP Event.isTurn) :
    ∃ delivered ended, m'.flush.stage = .returned delivered ended := by
  have hbound := m.flush.stage.rank_le m.behind
  have hrank := h.rank_le h₀ hr h'
  exact Flush.Stage.returned_of_rank m'.behind (by omega)

end Fresh

end Following

end Stepwise
