import Mathlib.Logic.Function.Basic
import Stepwise.Proofs.Lifecycle

/-!
# A run that is shared

A run may be executed by several callers at once, while others cancel it, clear its output or its
history, and look at its status. Every access of every caller happens at one moment, and what comes
between is not told. The first caller who claims the run executes its script, and the others are
sent away.

* `Shared.Event`, `Shared.Happens`, `Shared.Trace`: what happens at one moment, and in which order.
* `Phase.shown`, `Shared.Coupled`: what the run shows is told by the phase of one execution.
* `Shared.Orderly`: what is known of a shared run at every moment.
* `Shared.orderly`: it is so for every order of events.
-/

namespace Stepwise

/-! ## Phases and what they show -/

/-- Where a status may go. -/
inductive Status.Follows : Status → Status → Prop
  | refl {s : Status} : Follows s s
  | start : Follows .created (.executing 0)
  | advance {i j : Nat} : i ≤ j → Follows (.executing i) (.executing j)
  | complete {i : Nat} : Follows (.executing i) .completed
  | fail {i : Nat} : Follows (.executing i) .error

namespace Phase

/-- The execution has claimed the run. -/
def Active : Phase → Prop
  | idle | lost => False
  | _ => True

/-- The status and the error a run shows while its execution is in this phase. -/
def shown : Phase → Status × Option Outcome
  | idle | lost | claimed | begun => (.created, none)
  | executing i => (.executing i, none)
  | failing i o => (.executing i, some o)
  | completed => (.completed, none)
  | failed o => (.error, some o)

/-- The run shows what it does in this phase. -/
def Shows (p : Phase) (r : Run) : Prop := (r.status, r.error) = p.shown

variable {p : Phase} {c : Run.Access} {r : Run}

/-- An access that is none of the lifecycle shows nothing. -/
theorem perform_own (hc : ¬c.OfLifecycle) :
    (c.perform r).2.status = r.status ∧ (c.perform r).2.error = r.error ∧
      (c.perform r).2.launched = r.launched := by
  cases c with
  | launch | start | announce | enter | blame => exact absurd trivial hc
  | poll | read | assign | print | record => exact ⟨rfl, rfl, rfl⟩
  | log entry =>
    show (r.log entry).status = _ ∧ (r.log entry).error = _ ∧ (r.log entry).launched = _
    unfold Run.log
    split
    · exact ⟨rfl, rfl, rfl⟩
    · exact ⟨rfl, rfl, rfl⟩

/-- An access of the execution that claimed the run shows the phase it leads to. -/
theorem perform_active (hp : p.Active) (hc : p.Allows c) (h : p.Shows r) :
    (p.after c (c.perform r).1).Active ∧ (p.after c (c.perform r).1).Shows (c.perform r).2 ∧
      (c.perform r).2.launched = r.launched ∧ r.status.Follows (c.perform r).2.status := by
  obtain ⟨hstatus, herror⟩ := Prod.mk.inj h
  cases p with
  | idle | lost => exact hp.elim
  | completed | failed => exact hc.elim
  -- Up to its first status the execution has one access to make in each phase.
  | claimed =>
    obtain rfl := hc
    exact ⟨trivial, h, rfl, .refl⟩
  | begun =>
    obtain rfl := hc
    refine ⟨trivial, ?_, rfl, ?_⟩
    · exact congrArg (Prod.mk _) herror
    · rw [hstatus]
      exact .start
  | failing i o =>
    obtain rfl := hc
    refine ⟨trivial, ?_, rfl, ?_⟩
    · exact congrArg (Prod.mk _) herror
    · rw [hstatus]
      exact .fail
  | executing i =>
    -- In a step it may do anything but launch; what belongs to no phase changes no status.
    by_cases hown : c.OfLifecycle
    · cases c with
      | launch | start => exact absurd trivial hc
      | announce s =>
        obtain rfl := hc
        refine ⟨trivial, ?_, rfl, ?_⟩
        · exact congrArg (Prod.mk _) herror
        · rw [hstatus]
          exact .complete
      | enter j =>
        have henter : r.enter j = { r with status := .executing j } := by
          rw [Run.enter, hstatus]
          rfl
        show Active (executing j) ∧ Shows (executing j) (r.enter j) ∧ (r.enter j).launched = _ ∧
          r.status.Follows (r.enter j).status
        rw [henter, hstatus]
        exact ⟨trivial, congrArg (Prod.mk _) herror, rfl, .advance hc⟩
      | blame o =>
        refine ⟨trivial, ?_, rfl, .refl⟩
        exact congrArg (·, some o) hstatus
      | poll | read | assign | print | record | log => exact hown.elim
    · obtain ⟨hs, he, hl⟩ := perform_own (r := r) hown
      rw [after_own hown]
      refine ⟨trivial, ?_, hl, ?_⟩
      · rw [Shows, hs, he]
        exact h
      · rw [hs]
        exact .refl

/-- An execution that claimed the run stays the one that did. -/
theorem active_after_of_active (hp : p.Active) (x : c.Answer) : (p.after c x).Active := by
  cases p with
  | idle | lost => exact hp.elim
  | claimed | begun | executing | failing | completed | failed => cases c <;> trivial

/-- The run is claimed by the access that finds it unclaimed, and by no other. -/
theorem active_after (hc : p.Allows c) (x : c.Answer) :
    (p.after c x).Active ↔ p.Active ∨ Move.access c x = .access .launch false := by
  by_cases hp : p.Active
  · exact iff_of_true (active_after_of_active hp x) (.inl hp)
  · cases p with
    | idle =>
      obtain rfl := hc
      cases x with
      | true => simp [after, Active]
      | false => simp [after, Active]
    | lost => exact hc.elim
    | claimed | begun | executing | failing | completed | failed => exact absurd trivial hp

/-- What a run shows when its execution has given this result. -/
def ending : Except Outcome String → Status × Option Outcome
  | .ok _ => (.completed, none)
  | .error o => (.error, some o)

theorem shown_of_ends {name : String} {result : Except Outcome String} (hp : p.Active)
    (h : p.Ends name result) : p.shown = ending result := by
  cases p with
  | completed =>
    obtain ⟨message, rfl⟩ := h
    rfl
  | failed o =>
    obtain rfl := h
    rfl
  | idle | lost => exact hp.elim
  | claimed | begun | executing | failing => exact h.elim

/-- An execution whose run shows an end has ended. -/
theorem done_of_terminal {name : String} {q : Process (Except Outcome String)}
    (h : q.Keeps Watch.lifecycle (Ends name) p) (hp : p.shown.1.isTerminal = true) :
    ∃ result, q = .done result := by
  cases q with
  | done result => exact ⟨result, rfl⟩
  | access c next =>
    cases p with
    | completed | failed => exact h.1.elim
    | idle | lost | claimed | begun | executing | failing => cases hp
  | wait w next =>
    obtain ⟨i, rfl⟩ := h.1
    cases hp

theorem Shows.consistent (h : p.Shows r) :
    (r.status = .error → ∃ o, r.error = some o) ∧ (r.status = .completed → r.error = none) := by
  obtain ⟨hstatus, herror⟩ := Prod.mk.inj h
  rw [hstatus, herror]
  cases p with
  | failed o => exact ⟨fun _ => ⟨o, rfl⟩, Status.noConfusion⟩
  | completed => exact ⟨Status.noConfusion, fun _ => rfl⟩
  | idle | lost | claimed | begun | executing | failing =>
    exact ⟨Status.noConfusion, Status.noConfusion⟩

theorem Shows.showing {k : Nat} (h : p.Shows r) (hk : r.status = .executing k) : p.Showing k := by
  obtain ⟨hstatus, -⟩ := Prod.mk.inj h
  rw [hk] at hstatus
  cases p with
  | executing i | failing i o => exact (Status.executing.inj hstatus).symm
  | idle | lost | claimed | begun | completed | failed => cases hstatus

end Phase

/-! ## Events -/

/-- A run, and what is left of its executions. -/
structure Shared (ι : Type) where
  run : Run
  calls : ι → Process (Except Outcome String)

namespace Shared

open Watch (lifecycle)

/-- What happens to a shared run at one moment. -/
inductive Event (ι : Type) where
  | call (i : ι) (move : Move)
  | cancel
  | clearOutput
  | clearHistory
  /-- Someone looks at the status. -/
  | seeStatus (status : Status)
  /-- Someone looks at the error. -/
  | seeError (error : Option Outcome)

variable {ι : Type} [DecidableEq ι]

/-- The event leads from one moment to the next. -/
inductive Happens : Shared ι → Event ι → Shared ι → Prop
  | access {s : Shared ι} {i : ι} {c : Run.Access}
      {next : c.Answer → Process (Except Outcome String)} : s.calls i = .access c next →
      Happens s (.call i (.access c (c.perform s.run).1))
        ⟨(c.perform s.run).2, Function.update s.calls i (next (c.perform s.run).1)⟩
  | wait {s : Shared ι} {i : ι} {w : Wait} {next : w.Answer → Process (Except Outcome String)}
      (x : w.Answer) : s.calls i = .wait w next →
      Happens s (.call i (.wait w x)) ⟨s.run, Function.update s.calls i (next x)⟩
  | cancel {s : Shared ι} : Happens s .cancel ⟨s.run.cancel, s.calls⟩
  | clearOutput {s : Shared ι} : Happens s .clearOutput ⟨s.run.clearOutput, s.calls⟩
  | clearHistory {s : Shared ι} : Happens s .clearHistory ⟨s.run.clearHistory, s.calls⟩
  | seeStatus {s : Shared ι} : Happens s (.seeStatus s.run.status) s
  | seeError {s : Shared ι} : Happens s (.seeError s.run.error) s

/-- The events led from the beginning to this moment. -/
inductive Trace (start : Shared ι) : List (Event ι) → Shared ι → Prop
  | start : Trace start [] start
  | snoc {es : List (Event ι)} {event : Event ι} {s s' : Shared ι} : Trace start es s →
      Happens s event s' → Trace start (es ++ [event]) s'

/-- The moves of one execution among the events. -/
def movesOf (i : ι) (es : List (Event ι)) : List Move :=
  es.filterMap fun
    | .call j move => if j = i then some move else none
    | _ => none

/-- The phase an execution is in after these events. -/
def phase (es : List (Event ι)) (i : ι) : Phase := (movesOf i es).foldl lifecycle.after .idle

/-- The execution found the run unclaimed. -/
def Won (es : List (Event ι)) (i : ι) : Prop := .call i (.access .launch false) ∈ es

variable {es : List (Event ι)} {event : Event ι} {s s' start : Shared ι} {i j : ι} {move : Move}

theorem mem_movesOf : move ∈ movesOf i es ↔ .call i move ∈ es := by
  rw [movesOf, List.mem_filterMap]
  constructor
  · rintro ⟨event, hevent, hmove⟩
    cases event with
    | call j move' =>
      dsimp only at hmove
      split at hmove
      · next hj =>
        obtain rfl := Option.some.inj hmove
        exact hj ▸ hevent
      · cases hmove
    | cancel | clearOutput | clearHistory | seeStatus | seeError => cases hmove
  · exact fun h => ⟨_, h, if_pos rfl⟩

omit [DecidableEq ι] in
theorem won_snoc : Won (es ++ [event]) i ↔ Won es i ∨ event = .call i (.access .launch false) := by
  simp only [Won, List.mem_append, List.mem_singleton, eq_comm]

theorem movesOf_snoc_self : movesOf i (es ++ [.call i move]) = movesOf i es ++ [move] := by
  simp [movesOf]

theorem movesOf_snoc_of_ne (h : ∀ move, event ≠ .call i move) :
    movesOf i (es ++ [event]) = movesOf i es := by
  cases event with
  | call j move =>
    have hj : j ≠ i := by
      rintro rfl
      exact h move rfl
    simp [movesOf, hj]
  | _ => simp [movesOf]

theorem phase_snoc_self : phase (es ++ [.call i move]) i = lifecycle.after (phase es i) move := by
  rw [phase, movesOf_snoc_self, List.foldl_append]
  rfl

theorem phase_snoc_of_ne (h : ∀ move, event ≠ .call i move) :
    phase (es ++ [event]) i = phase es i := by
  rw [phase, movesOf_snoc_of_ne h, phase]

/-- An execution takes one step of its own. -/
theorem Happens.path (h : Happens s (.call i move) s') : (s.calls i).Path [move] (s'.calls i) := by
  cases h with
  | access hi =>
    dsimp only
    rw [hi, Function.update_self]
    exact .access .refl
  | wait x hi =>
    dsimp only
    rw [hi, Function.update_self]
    exact .wait .refl

/-- Events of others leave an execution where it is. -/
theorem Happens.calls_eq (h : Happens s event s') (hi : ∀ move, event ≠ .call i move) :
    s'.calls i = s.calls i := by
  cases h with
  | access | wait =>
    exact Function.update_of_ne (fun hij => hi _ (congrArg (Event.call · _) hij.symm)) _ _
  | cancel | clearOutput | clearHistory | seeStatus | seeError => rfl

/-- Every execution is on a path of its own. -/
theorem Trace.path (h : Trace start es s) (i : ι) :
    (start.calls i).Path (movesOf i es) (s.calls i) := by
  induction h with
  | start => exact .refl
  | @snoc es event s s' _ hstep ih =>
    by_cases hi : ∃ move, event = .call i move
    · obtain ⟨move, rfl⟩ := hi
      rw [movesOf_snoc_self]
      exact ih.trans hstep.path
    · have hi : ∀ move, event ≠ .call i move := fun move he => hi ⟨move, he⟩
      rw [movesOf_snoc_of_ne hi, hstep.calls_eq hi]
      exact ih

theorem Trace.trans {later : List (Event ι)} (h : Trace start es s) (h' : Trace s later s') :
    Trace start (es ++ later) s' := by
  induction h' with
  | start => rwa [List.append_nil]
  | snoc _ hstep ih =>
    rw [← List.append_assoc]
    exact .snoc ih hstep

/-- What happened at one moment, and what came before it and after. -/
theorem Trace.at_event {before later : List (Event ι)}
    (h : Trace start (before ++ event :: later) s') :
    ∃ s₁ s₂, Trace start before s₁ ∧ Happens s₁ event s₂ ∧ Trace s₂ later s' := by
  generalize hall : before ++ event :: later = all at h
  induction h generalizing later with
  | start => exact absurd hall (List.append_ne_nil_of_right_ne_nil _ (List.cons_ne_nil _ _))
  | snoc h hstep ih =>
    rcases List.eq_nil_or_concat later with rfl | ⟨rest, last, rfl⟩
    · obtain ⟨rfl, hlast⟩ := List.append_inj' hall rfl
      obtain ⟨rfl, -⟩ := List.cons.inj hlast
      exact ⟨_, _, h, hstep, .start⟩
    · rw [List.concat_eq_append, ← List.cons_append, ← List.append_assoc] at hall
      obtain ⟨hrest, hlast⟩ := List.append_inj' hall rfl
      obtain ⟨rfl, -⟩ := List.cons.inj hlast
      obtain ⟨s₁, s₂, h₁, hevent, hlater⟩ := ih hrest
      exact ⟨s₁, s₂, h₁, hevent, List.concat_eq_append ▸ hlater.snoc hstep⟩

/-! ## The execution that claimed the run -/

/-- Either nobody claimed the run yet, or one execution did, and the run shows its phase. -/
inductive Coupled (r : Run) (phases : ι → Phase) : Prop
  | unclaimed : r.launched = false → (∀ i, phases i = .idle) → Phase.idle.Shows r → Coupled r phases
  | claimed (i : ι) : r.launched = true → (phases i).Active → (phases i).Shows r →
      (∀ j, j ≠ i → phases j = .idle ∨ phases j = .lost) → Coupled r phases

namespace Coupled

variable {r r' : Run} {phases : ι → Phase} {c : Run.Access}

omit [DecidableEq ι] in
/-- What is neither the claim, nor the status, nor the error does not count. -/
theorem congr (h : Coupled r phases) (hl : r'.launched = r.launched) (hs : r'.status = r.status)
    (he : r'.error = r.error) : Coupled r' phases := by
  have hshows (p : Phase) (hp : p.Shows r) : p.Shows r' := by
    rw [Phase.Shows, hs, he]
    exact hp
  cases h with
  | unclaimed hlaunched hidle hp => exact .unclaimed (hl.trans hlaunched) hidle (hshows _ hp)
  | claimed i hlaunched hi hp hothers =>
    exact .claimed i (hl.trans hlaunched) hi (hshows _ hp) hothers

/-- An access of one execution leads from one phase to the next, and the run shows it. -/
theorem access (h : Coupled r phases) (hc : (phases i).Allows c) :
    Coupled (c.perform r).2
        (Function.update phases i ((phases i).after c (c.perform r).1)) ∧
      r.status.Follows (c.perform r).2.status := by
  cases h with
  -- Whoever is first to launch claims the run, and the others are idle as before.
  | unclaimed hlaunched hidle hp =>
    rw [hidle i] at hc ⊢
    obtain rfl : c = .launch := hc
    have hclaims : Phase.after .idle .launch r.launched = .claimed := by
      rw [hlaunched]
      rfl
    refine ⟨.claimed i rfl ?_ ?_ fun j hj => ?_, .refl⟩
    · rw [Function.update_self]
      exact hclaims ▸ trivial
    · rw [Function.update_self]
      exact hclaims ▸ hp
    · rw [Function.update_of_ne hj]
      exact .inl (hidle j)
  | claimed w hlaunched hw hp hothers =>
    by_cases hi : i = w
    · -- The one that claimed it goes on.
      subst hi
      obtain ⟨hactive, hshows, hl, hfollows⟩ := Phase.perform_active hw hc hp
      refine ⟨.claimed i (hl.trans hlaunched) ?_ ?_ fun j hj => ?_, hfollows⟩
      · rw [Function.update_self]
        exact hactive
      · rw [Function.update_self]
        exact hshows
      · rw [Function.update_of_ne hj]
        exact hothers j hj
    · rcases hothers i hi with hidle | hlost
      · -- Another one comes late: it is told that the run was launched, and gives up.
        rw [hidle] at hc ⊢
        obtain rfl : c = .launch := hc
        refine ⟨.claimed w rfl ?_ ?_ fun j hj => ?_, .refl⟩
        · rw [Function.update_of_ne (Ne.symm hi)]
          exact hw
        · rw [Function.update_of_ne (Ne.symm hi)]
          exact hp
        · by_cases hji : j = i
          · subst hji
            rw [Function.update_self]
            refine .inr ?_
            show Phase.after .idle .launch r.launched = .lost
            rw [hlaunched]
            rfl
          · rw [Function.update_of_ne hji]
            exact hothers j hj
      · rw [hlost] at hc
        exact hc.elim

/-- Who comes late finds the run claimed, and changes nothing. -/
theorem late (h : Coupled r phases) (hc : (phases i).Allows c)
    (hi : ¬((phases i).after c (c.perform r).1).Active) :
    Move.access c (c.perform r).1 = .access .launch true ∧ (c.perform r).2 = r := by
  cases h with
  | unclaimed hlaunched hidle hp =>
    rw [hidle i] at hc hi
    obtain rfl : c = .launch := hc
    refine absurd ?_ hi
    show (Phase.after .idle .launch r.launched).Active
    rw [hlaunched]
    trivial
  | claimed w hlaunched hw hp hothers =>
    by_cases hiw : i = w
    · subst hiw
      exact absurd (Phase.active_after_of_active hw _) hi
    · rcases hothers i hiw with hidle | hlost
      · rw [hidle] at hc
        obtain rfl : c = .launch := hc
        refine ⟨congrArg (Move.access .launch) hlaunched, ?_⟩
        -- Setting the mark again is no change.
        show { r with launched := true } = r
        cases r
        cases hlaunched
        rfl
      · rw [hlost] at hc
        exact hc.elim

/-- When the run has ended, no execution changes it any more. -/
theorem ended (h : Coupled r phases) (hc : (phases i).Allows c) (hr : r.status.isTerminal = true) :
    (c.perform r).2 = r := by
  refine (h.late hc fun hactive => ?_).2
  cases h with
  | unclaimed _ _ hp =>
    rw [(Prod.mk.inj hp).1] at hr
    cases hr
  | claimed w hlaunched hw hp hothers =>
    by_cases hi : i = w
    · -- The one that claimed it has no access left; no other phase shows a terminal status.
      subst hi
      rw [Phase.Shows] at hp
      cases hphase : phases i with
      | completed | failed =>
        rw [hphase] at hc
        exact hc
      | idle | lost | claimed | begun | executing | failing =>
        rw [hphase] at hp
        rw [(Prod.mk.inj hp).1] at hr
        cases hr
    · rcases hothers i hi with hidle | hlost
      · rw [hidle] at hc hactive
        obtain rfl : c = .launch := hc
        rw [show Phase.after .idle .launch (Run.Access.perform .launch r).1 = .lost by
          show (if r.launched then Phase.lost else _) = _
          rw [hlaunched]
          rfl] at hactive
        exact hactive
      · rw [hlost] at hc
        exact hc

end Coupled

/-! ## Shared runs from the beginning -/

/-- A new run that several callers are about to execute. -/
def fresh (name : String) (options : Run.Options) (config : Config) (values : Entries Value)
    (e : ι → Engine) (script : ι → Script) : Shared ι :=
  ⟨(Run.create name options config).seed values, fun i => (e i).execute name (script i)⟩

section Fresh

variable {name : String} {options : Run.Options} {config : Config} {values : Entries Value}
  {e : ι → Engine} {script : ι → Script}

/-- Every execution keeps to its phases. -/
theorem Trace.keeps (h : Trace (fresh name options config values e script) es s) (i : ι) :
    (s.calls i).Keeps lifecycle (Phase.Ends name) (phase es i) :=
  ((e i).execute_keeps_lifecycle name (script i)).path (h.path i)

theorem Trace.allows (h : Trace (fresh name options config values e script) es s)
    {c : Run.Access} {next : c.Answer → Process (Except Outcome String)}
    (hi : s.calls i = .access c next) : (phase es i).Allows c := by
  have hkeeps := h.keeps i
  rw [hi] at hkeeps
  exact hkeeps.1

theorem phase_snoc_access {c : Run.Access} {x : c.Answer} :
    phase (es ++ [.call i (.access c x)]) =
      Function.update (phase es) i ((phase es i).after c x) := by
  funext j
  by_cases hj : j = i
  · subst hj
    rw [phase_snoc_self, Function.update_self]
    rfl
  · rw [phase_snoc_of_ne fun _ he => hj (Event.call.inj he).1.symm, Function.update_of_ne hj]

theorem phase_snoc_wait {w : Wait} {x : w.Answer} :
    phase (es ++ [.call i (.wait w x)]) = phase es := by
  funext j
  by_cases hj : j = i
  · subst hj
    rw [phase_snoc_self]
    rfl
  · rw [phase_snoc_of_ne fun _ he => hj (Event.call.inj he).1.symm]

/-- What an event does to the phases and to what the run shows. -/
theorem Trace.step (h : Trace (fresh name options config values e script) es s)
    (hs : Coupled s.run (phase es)) (hstep : Happens s event s') :
    Coupled s'.run (phase (es ++ [event])) ∧ s.run.status.Follows s'.run.status := by
  have hsame (hevent : ∀ i move, event ≠ .call i move) : phase (es ++ [event]) = phase es :=
    funext fun i => phase_snoc_of_ne (hevent i)
  cases hstep with
  | access hi =>
    rw [phase_snoc_access]
    exact hs.access (h.allows hi)
  | wait x hi =>
    rw [phase_snoc_wait]
    exact ⟨hs, .refl⟩
  | cancel | clearOutput | clearHistory | seeStatus | seeError =>
    rw [hsame fun _ _ he => by cases he]
    exact ⟨hs.congr rfl rfl rfl, .refl⟩

theorem Trace.coupled (h : Trace (fresh name options config values e script) es s) :
    Coupled s.run (phase es) := by
  induction h with
  | start => exact .unclaimed rfl (fun _ => rfl) rfl
  | snoc h hstep ih => exact (h.step ih hstep).1

/-- The executions that found the run unclaimed are those that are at work on it. -/
theorem Trace.active_iff_won (h : Trace (fresh name options config values e script) es s) (i : ι) :
    (phase es i).Active ↔ Won es i := by
  induction h with
  | start => exact iff_of_false id List.not_mem_nil
  | @snoc es event s s' h hstep ih =>
    rw [won_snoc, ← ih]
    cases hstep with
    | @access j c next hj =>
      rw [phase_snoc_access]
      by_cases hij : i = j
      · subst hij
        rw [Function.update_self, Phase.active_after (h.allows hj)]
        simp only [Event.call.injEq, true_and]
      · rw [Function.update_of_ne hij]
        exact (or_iff_left fun he => hij (Event.call.inj he).1.symm).symm
    | wait =>
      rw [phase_snoc_wait]
      exact (or_iff_left fun he => by cases he).symm
    | cancel | clearOutput | clearHistory | seeStatus | seeError =>
      rw [phase_snoc_of_ne fun _ he => by cases he]
      exact (or_iff_left fun he => by cases he).symm

/-- Either nobody claimed the run yet, or one execution did, and the run shows its phase. -/
theorem Trace.shows (h : Trace (fresh name options config values e script) es s) :
    ((∀ i, phase es i = .idle) ∧ Phase.idle.Shows s.run) ∨
      ∃ w, Won es w ∧ (∀ i, Won es i → i = w) ∧ (phase es w).Shows s.run := by
  cases h.coupled with
  | unclaimed _ hidle hshows => exact .inl ⟨hidle, hshows⟩
  | claimed w _ hw hshows hothers =>
    refine .inr ⟨w, (h.active_iff_won w).mp hw, fun i hi => ?_, hshows⟩
    by_contra hne
    have hactive := (h.active_iff_won i).mpr hi
    rcases hothers i hne with hidle | hlost
    · rwa [hidle] at hactive
    · rwa [hlost] at hactive

/-- The run shows the phase of the execution that found it unclaimed. -/
theorem Trace.shows_of_won (h : Trace (fresh name options config values e script) es s)
    (hi : Won es i) : (phase es i).Shows s.run := by
  rcases h.shows with ⟨hidle, -⟩ | ⟨w, -, hw, hshows⟩
  · have hactive := (h.active_iff_won i).mpr hi
    rw [hidle i] at hactive
    exact hactive.elim
  · exact hw i hi ▸ hshows

/-- Until an execution finds the run unclaimed, the run is as new. -/
theorem Trace.exists_won (h : Trace (fresh name options config values e script) es s)
    (hs : s.run.status ≠ .created) : ∃ i, Won es i := by
  rcases h.shows with ⟨-, hshows⟩ | ⟨w, hw, -⟩
  · exact absurd (Prod.mk.inj hshows).1 hs
  · exact ⟨w, hw⟩

/-- An execution that did not find the run unclaimed has not asked yet, or was sent away. -/
theorem Trace.others (h : Trace (fresh name options config values e script) es s)
    (hi : ¬Won es i) :
    (movesOf i es = [] ∧ s.calls i = (e i).execute name (script i)) ∨
      (movesOf i es = [.access .launch true] ∧
        s.calls i = .done (.error (Engine.alreadyStarted name)) ∧ ∃ w, Won es w) := by
  rcases Engine.launches_of_path (h.path i) with hnew | ⟨hmoves, hcalls⟩ | ⟨rest, hmoves⟩
  · exact .inl hnew
  · refine .inr ⟨hmoves, hcalls, ?_⟩
    rcases h.shows with ⟨hidle, -⟩ | ⟨w, hw, -⟩
    · have hlost : phase es i = .lost := by
        rw [phase, hmoves]
        rfl
      exact absurd ((hidle i).symm.trans hlost) Phase.noConfusion
    · exact ⟨w, hw⟩
  · exact absurd (mem_movesOf.mp (hmoves ▸ List.mem_cons_self)) hi

/-- What an execution does that did not find the run unclaimed leaves the run alone. -/
theorem Trace.unchanged (h : Trace (fresh name options config values e script) es s)
    (hstep : Happens s (.call i move) s') (hi : ¬Won (es ++ [.call i move]) i) :
    s'.run = s.run := by
  have hinactive := mt ((h.snoc hstep).active_iff_won i).mp hi
  cases hstep with
  | access hc =>
    rw [phase_snoc_access, Function.update_self] at hinactive
    exact (h.coupled.late (h.allows hc) hinactive).2
  | wait => rfl

/-- When the run has ended, its status and its error stay. -/
theorem Trace.ended (h : Trace (fresh name options config values e script) es s)
    (hr : s.run.status.isTerminal = true) {later : List (Event ι)} (h' : Trace s later s') :
    s'.run.status = s.run.status ∧ s'.run.error = s.run.error := by
  induction h' with
  | start => exact ⟨rfl, rfl⟩
  | @snoc later event s₁ s₂ h' hstep ih =>
    have h₁ := h.trans h'
    have hr₁ : s₁.run.status.isTerminal = true := ih.1 ▸ hr
    cases hstep with
    | access hc =>
      rw [← ih.1, ← ih.2]
      have hrun := h₁.coupled.ended (h₁.allows hc) hr₁
      exact ⟨congrArg Run.status hrun, congrArg Run.error hrun⟩
    | wait | cancel | clearOutput | clearHistory | seeStatus | seeError => exact ih

/-- An execution that found the run unclaimed has ended when the run has, and as the run shows. -/
theorem Trace.result (h : Trace (fresh name options config values e script) es s)
    (hi : Won es i) :
    (s.run.status.isTerminal = true ↔ ∃ result, s.calls i = .done result) ∧
      ∀ result, s.calls i = .done result → (s.run.status, s.run.error) = Phase.ending result := by
  have hactive := (h.active_iff_won i).mpr hi
  have hshows := h.shows_of_won hi
  have hkeeps := h.keeps i
  have hending (result : Except Outcome String) (hr : s.calls i = .done result) :
      (s.run.status, s.run.error) = Phase.ending result := by
    rw [hr] at hkeeps
    exact hshows.trans (Phase.shown_of_ends hactive hkeeps)
  refine ⟨⟨fun hterminal => ?_, fun ⟨result, hr⟩ => ?_⟩, hending⟩
  · rw [(Prod.mk.inj hshows).1] at hterminal
    exact Phase.done_of_terminal hkeeps hterminal
  · rw [(Prod.mk.inj (hending result hr)).1]
    cases result with
    | ok => rfl
    | error => rfl

/-- When the run has ended, an execution that found it unclaimed has, and as the run shows. -/
theorem Trace.result_of_terminal (h : Trace (fresh name options config values e script) es s)
    (hr : s.run.status.isTerminal = true) :
    ∃ i result, Won es i ∧ s.calls i = .done result ∧
      s.run.status = (Phase.ending result).1 := by
  obtain ⟨i, hi⟩ := h.exists_won fun hs => by
    rw [hs] at hr
    cases hr
  obtain ⟨hended, hending⟩ := h.result hi
  obtain ⟨result, hdone⟩ := hended.mp hr
  exact ⟨i, result, hi, hdone, (Prod.mk.inj (hending result hdone)).1⟩

theorem Trace.consistent (h : Trace (fresh name options config values e script) es s) :
    (s.run.status = .error → ∃ o, s.run.error = some o) ∧
      (s.run.status = .completed → s.run.error = none) := by
  rcases h.shows with ⟨-, hshows⟩ | ⟨w, -, -, hshows⟩
  · exact hshows.consistent
  · exact hshows.consistent

/-- Whoever looks at the status, and then at the error, sees an error if the run has ended with one,
and none if it is completed. -/
theorem Trace.sees {before later : List (Event ι)} {status : Status} {error : Option Outcome}
    (h : Trace (fresh name options config values e script) (before ++ .seeStatus status :: later) s)
    (herror : .seeError error ∈ later) :
    (status = .error → ∃ o, error = some o) ∧ (status = .completed → error = none) := by
  obtain ⟨s₁, s₂, h₁, hstatus, hlater⟩ := h.at_event
  cases hstatus
  obtain ⟨between, rest, rfl⟩ := List.append_of_mem herror
  obtain ⟨s₃, s₄, hbetween, hseen, -⟩ := hlater.at_event
  cases hseen
  constructor
  · intro hs
    rw [(h₁.ended (hs ▸ rfl) hbetween).2]
    exact h₁.consistent.1 hs
  · intro hs
    rw [(h₁.ended (hs ▸ rfl) hbetween).2]
    exact h₁.consistent.2 hs

/-! ## What is known of a shared run -/

/-- What is known of a run that several callers execute, after these events. -/
structure Orderly (name : String) (e : ι → Engine) (script : ι → Script) (es : List (Event ι))
    (s : Shared ι) : Prop where
  /-- At most one execution finds the run unclaimed. -/
  winner {i j : ι} : Won es i → Won es j → i = j
  /-- Every other one has not asked yet, or was sent away and has done nothing else. -/
  others {i : ι} : ¬Won es i → (movesOf i es = [] ∧ s.calls i = (e i).execute name (script i)) ∨
    (movesOf i es = [.access .launch true] ∧
      s.calls i = .done (.error (Engine.alreadyStarted name)) ∧ ∃ w, Won es w)
  /-- What it does leaves the run as it is. -/
  unchanged {i : ι} {move : Move} {s' : Shared ι} : Happens s (.call i move) s' →
    ¬Won (es ++ [.call i move]) i → s'.run = s.run
  /-- The status goes forward. -/
  follows {event : Event ι} {s' : Shared ι} : Happens s event s' →
    s.run.status.Follows s'.run.status
  /-- The status leaves its beginning for an execution that found the run unclaimed. -/
  claimed : s.run.status ≠ .created → ∃ i, Won es i
  /-- When the run has ended, nothing changes its status or its error, -/
  final {later : List (Event ι)} {s' : Shared ι} : s.run.status.isTerminal = true →
    Trace s later s' → s'.run.status = s.run.status ∧ s'.run.error = s.run.error
  /-- not even an attempt to show another step. -/
  sticky (index : Nat) : s.run.status.isTerminal = true → s.run.enter index = s.run
  /-- The steps before the one that is shown have succeeded. -/
  succeeded {i : ι} {ts : List Step} {k : Nat} : Won es i → script i = .steps ts →
    s.run.status = .executing k → (e i).Succeeded (ts.take k) (movesOf i es)
  /-- The run is completed when its execution has succeeded, -/
  completed : s.run.status = .completed ↔
    ∃ i message, Won es i ∧ s.calls i = .done (.ok message)
  /-- and it shows an error when its execution has failed, -/
  failed : s.run.status = .error ↔ ∃ i o, Won es i ∧ s.calls i = .done (.error o)
  /-- which is then the error that is noted. -/
  blamed {i : ι} {o : Outcome} : Won es i → s.calls i = .done (.error o) → s.run.error = some o
  /-- Whoever looked at the status, and then at the error, saw an error if the run had ended with
  one, and none if it was completed. -/
  sees {before later : List (Event ι)} {status : Status} {error : Option Outcome} :
    es = before ++ .seeStatus status :: later → .seeError error ∈ later →
    (status = .error → ∃ o, error = some o) ∧ (status = .completed → error = none)

/-- A new run that several callers execute, each with an engine and a script of his own, stays
orderly whatever happens in whatever order. -/
theorem orderly (h : Trace (fresh name options config values e script) es s) :
    Orderly name e script es s where
  winner hi hj := by
    rcases h.shows with ⟨hidle, -⟩ | ⟨w, -, hw, -⟩
    · have hactive := (h.active_iff_won _).mpr hi
      rw [hidle] at hactive
      exact hactive.elim
    · exact (hw _ hi).trans (hw _ hj).symm
  others := h.others
  unchanged := h.unchanged
  follows hstep := (h.step h.coupled hstep).2
  claimed := h.exists_won
  final hr h' := h.ended hr h'
  sticky _ hr := if_pos hr
  succeeded {i ts k} hi hscript hstatus := by
    have hpath : ((e i).execute name (script i)).Path (movesOf i es) (s.calls i) := h.path i
    rw [hscript] at hpath
    exact Engine.succeeded_of_path hpath ((h.shows_of_won hi).showing hstatus)
  completed := by
    constructor
    · intro hs
      obtain ⟨i, result, hi, hdone, hstatus⟩ := h.result_of_terminal (hs ▸ rfl)
      cases result with
      | ok message => exact ⟨i, message, hi, hdone⟩
      | error o => exact absurd (hs.symm.trans hstatus) Status.noConfusion
    · rintro ⟨i, message, hi, hdone⟩
      exact (Prod.mk.inj ((h.result hi).2 _ hdone)).1
  failed := by
    constructor
    · intro hs
      obtain ⟨i, result, hi, hdone, hstatus⟩ := h.result_of_terminal (hs ▸ rfl)
      cases result with
      | ok message => exact absurd (hs.symm.trans hstatus) Status.noConfusion
      | error o => exact ⟨i, o, hi, hdone⟩
    · rintro ⟨i, o, hi, hdone⟩
      exact (Prod.mk.inj ((h.result hi).2 _ hdone)).1
  blamed hi hdone := (Prod.mk.inj ((h.result hi).2 _ hdone)).2
  sees hes herror := Trace.sees (hes ▸ h) herror

/-- Two callers who execute a step that prints. The second comes in between, and then someone cancels
the run before it ends. -/
theorem orderly_twice :
    let prints : Step := ⟨[("action", .str "print_msg"), ("message", .int 1)]⟩
    let e : Bool → Engine := fun _ => {}
    let script : Bool → Script := fun _ => .steps [prints]
    ∃ es s, Trace (fresh "twice" {} {} [] e script) es s ∧ Orderly "twice" e script es s ∧
      Won es true ∧ s.calls false = .done (.error (Engine.alreadyStarted "twice")) ∧
      s.run.status = .completed := by
  intro prints e script
  have new : Trace (fresh "twice" {} {} [] e script) [] _ := .start
  have between := ((new.snoc (.access (i := true) rfl)).snoc (.access (i := true) rfl)).snoc
    (.access (i := false) rfl)
  have shown := ((between.snoc (.access (i := true) rfl)).snoc (.access (i := true) rfl)).snoc
    (.access (i := true) rfl)
  have printed := (shown.snoc (.access (i := true) rfl)).snoc (.access (i := true) rfl)
  have ended := ((printed.snoc (.access (i := true) rfl)).snoc .cancel).snoc
    (.access (i := true) rfl)
  exact ⟨_, _, ended, orderly ended, (ended.active_iff_won true).mp trivial, rfl, rfl⟩

end Fresh

end Shared

end Stepwise
