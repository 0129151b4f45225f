import Stepwise.Proofs.Sharing
import Stepwise.Proofs.Steadiness

/-!
# Triggers of a shared run

At every moment a shared run has the triggers of the steps that have succeeded, wherever these stand
in the script and however often a loop came to them. Each was recorded by the execution that found
the run unclaimed, with the variables as they were at that moment, since nobody else sets any.

* `Shared.recorded`, `Shared.successes`: the triggers and the successes among the events.
* `Shared.Trace.looked`: what an execution has just read is what the run holds.
* `Shared.Trace.balanced`: triggers against successes.
* `Shared.Deferred`, `Shared.deferred`: the triggers of a run at every moment.
-/

namespace Stepwise

/-! ## Triggers among the events -/

theorem Run.triggers_perform (c : Access) (x : c.Answer) (r : Run) :
    (c.perform r).2.triggers.toList =
      r.triggers.toList ++ (Move.trigger? (.access c x)).toList := by
  cases c with
  | record t => exact Array.toList_push
  | log entry =>
    show (r.log entry).triggers.toList = _
    unfold log
    split
    · exact (List.append_nil _).symm
    · exact (List.append_nil _).symm
  | enter index =>
    show (r.enter index).triggers.toList = _
    unfold enter
    split
    · exact (List.append_nil _).symm
    · exact (List.append_nil _).symm
  | _ => exact (List.append_nil _).symm

namespace Shared

/-- The move of an execution that the event is. -/
def Event.move? {ι : Type} : Event ι → Option Move
  | .call _ move => some move
  | _ => none

theorem Event.eq_call {ι : Type} {event : Event ι} {move : Move} (h : event.move? = some move) :
    ∃ i, event = .call i move := by
  cases event with
  | call i move' => exact ⟨i, congrArg (Event.call i) (Option.some.inj h)⟩
  | cancel | clearOutput | clearHistory | seeStatus | seeError => cases h

/-- The triggers that are recorded with the events, in their order. -/
def recorded {ι : Type} (es : List (Event ι)) : List Trigger :=
  (es.filterMap Event.move?).filterMap Move.trigger?

/-- The successes of steps that asked for a trigger, which are written with the events. -/
def successes {ι : Type} (es : List (Event ι)) : List Outcome :=
  (es.filterMap Event.move?).filterMap Move.success?

variable {ι : Type} [DecidableEq ι] {es : List (Event ι)} {s s' start : Shared ι} {i : ι}

omit [DecidableEq ι] in
theorem recorded_snoc (event : Event ι) :
    recorded (es ++ [event]) = recorded es ++ (event.move?.bind Move.trigger?).toList := by
  rw [recorded, List.filterMap_append, List.filterMap_append]
  refine congrArg (recorded es ++ ·) ?_
  cases event with
  | call j move => cases h : move.trigger? <;> simp [Event.move?, h]
  | cancel | clearOutput | clearHistory | seeStatus | seeError => rfl

/-- An execution that is left alone gets to its end. -/
theorem Trace.run {σ : Type} (h : Trace start es s) (answer : (w : Wait) → σ → w.Answer × σ)
    {p : Process (Except Outcome String)} (hi : s.calls i = p) (w : σ) :
    ∃ s', Trace start (es ++ (p.moves (.answering answer) s.run w).map (.call i)) s' ∧
      s'.run = (p.run (.answering answer) s.run w).2.1 := by
  induction p generalizing es s w with
  | done result => exact ⟨s, by rwa [Process.moves, List.map_nil, List.append_nil], rfl⟩
  | access c next ih =>
    obtain ⟨s', hs', hrun⟩ := ih _ (h.snoc (.access hi)) (Function.update_self ..) w
    rw [List.append_assoc] at hs'
    exact ⟨s', hs', hrun⟩
  | wait v next ih =>
    obtain ⟨s', hs', hrun⟩ :=
      ih _ (h.snoc (.wait (answer v w).1 hi)) (Function.update_self ..) (answer v w).2
    rw [List.append_assoc] at hs'
    exact ⟨s', hs', hrun⟩

/-- The triggers of a run are those that have been recorded. -/
theorem Trace.triggers_eq (h : Trace start es s) :
    s.run.triggers.toList = start.run.triggers.toList ++ recorded es := by
  induction h with
  | start => exact (List.append_nil _).symm
  | snoc h hstep ih =>
    rw [recorded_snoc, ← List.append_assoc, ← ih]
    cases hstep with
    | access hi => exact Run.triggers_perform _ _ _
    | wait | cancel | clearOutput | clearHistory | seeStatus | seeError =>
      exact (List.append_nil _).symm

section Fresh

variable {name : String} {options : Run.Options} {config : Config} {values : Entries Value}
  {e : ι → Engine} {script : ι → Script}

/-- An execution that did not find the run unclaimed has done no more than ask. -/
theorem Trace.asks (h : Trace (fresh name options config values e script) es s) (hi : ¬Won es i) :
    ∀ move ∈ movesOf i es, move = .access .launch true := by
  intro move hmove
  rcases h.others hi with ⟨hmoves, -⟩ | ⟨hmoves, -⟩
  · rw [hmoves] at hmove
    cases hmove
  · rw [hmoves] at hmove
    exact List.mem_singleton.mp hmove

/-- What the executions have done but for asking has been done by one of them. -/
theorem Trace.filterMap_moves (h : Trace (fresh name options config values e script) es s) :
    (∃ w, Won es w ∧ ∀ {β : Type} (f : Move → Option β), f (.access .launch true) = none →
      (es.filterMap Event.move?).filterMap f = (movesOf w es).filterMap f) ∨
    (∀ i, ¬Won es i) ∧ ∀ {β : Type} (f : Move → Option β), f (.access .launch true) = none →
      (es.filterMap Event.move?).filterMap f = [] := by
  -- The others have only been told that they came late.
  have hothers {β : Type} {f : Move → Option β} (hf : f (.access .launch true) = none) {j : ι}
      (hj : ¬Won es j) {move : Move} (hmove : .call j move ∈ es) : f move = none := by
    rw [h.asks hj move (mem_movesOf.mpr hmove), hf]
  by_cases hw : ∃ w, Won es w
  · obtain ⟨w, hw⟩ := hw
    refine .inl ⟨w, hw, fun f hf => ?_⟩
    rw [movesOf, List.filterMap_filterMap, List.filterMap_filterMap]
    refine List.filterMap_congr fun event hevent => ?_
    cases event with
    | call j move =>
      by_cases hj : j = w
      · simp [Event.move?, hj]
      · have hnone := hothers hf (fun hwon => hj ((orderly h).winner hwon hw)) hevent
        simp [Event.move?, hj, hnone]
    | cancel | clearOutput | clearHistory | seeStatus | seeError => rfl
  · refine .inr ⟨not_exists.mp hw, fun f hf => ?_⟩
    refine List.filterMap_eq_nil_iff.mpr fun move hmove => ?_
    obtain ⟨event, hevent, hcall⟩ := List.mem_filterMap.mp hmove
    cases event with
    | call j move' =>
      obtain rfl := Option.some.inj hcall
      exact hothers hf (fun hj => hw ⟨j, hj⟩) hevent
    | cancel | clearOutput | clearHistory | seeStatus | seeError => cases hcall

/-- The variables that an execution has just looked at are those of the run. -/
theorem Trace.looked (h : Trace (fresh name options config values e script) es s) {store : Store}
    {front : List Move} (hi : movesOf i es = front ++ [.access .read store]) :
    s.run.store = store := by
  induction h generalizing front with
  | start => exact absurd hi (by simp [movesOf])
  | @snoc es event s s' h hstep ih =>
    by_cases hown : ∃ move, event = .call i move
    · obtain ⟨move, rfl⟩ := hown
      rw [movesOf_snoc_self] at hi
      obtain ⟨-, hmove⟩ := List.append_inj' hi rfl
      obtain ⟨rfl, -⟩ := List.cons.inj hmove
      cases hstep
      rfl
    · have hother : ∀ move, event ≠ .call i move := fun move hevent => hown ⟨move, hevent⟩
      rw [movesOf_snoc_of_ne hother] at hi
      -- Who reads is the execution that found the run unclaimed, and nobody else sets variables.
      have hwon : Won es i := by
        by_contra hlost
        have hread := h.asks hlost (.access .read store) (by rw [hi]; simp)
        cases hread
      rw [← ih hi]
      have hcall {j : ι} {move : Move} (hevent : event = .call j move) :
          s'.run = s.run := by
        subst hevent
        refine h.unchanged hstep fun hj => ?_
        have hij := (orderly (h.snoc hstep)).winner (won_snoc.mpr (.inl hwon)) hj
        exact hother move (hij ▸ rfl)
      cases hstep with
      | access => exact congrArg Run.store (hcall rfl)
      | wait | cancel | clearOutput | clearHistory | seeStatus | seeError => rfl

/-- An execution does about triggers what it should. -/
theorem Trace.steady (h : Trace (fresh name options config values e script) es s)
    (he : (e i).registry = .builtins) :
    (s.calls i).Keeps (.triggers (e i) (script i).Has) (fun _ moves => ¬Pending moves)
      (movesOf i es) := by
  have hkeeps := (Engine.execute_steady he name (script i)) [] not_pending_nil
  have hpath := hkeeps.path (h.path i)
  rwa [Watch.foldl_triggers] at hpath

/-- A trigger is recorded for a step of the script that has just looked at the variables. -/
theorem Trace.records (h : Trace (fresh name options config values e script) es s)
    (he : (e i).registry = .builtins) {t : Trigger}
    (hstep : Happens s (.call i (.access (.record t) ())) s') :
    ∃ step front, (script i).Has step ∧ (e i).Records step s.run.store t ∧
      movesOf i es =
        front ++ [.access (.poll (.step step)) false, .access .read s.run.store] := by
  have hpath : (s.calls i).Path ([] ++ .access (.record t) () :: []) (s'.calls i) := hstep.path
  obtain ⟨step, store, front, hscript, hrecords, hmoves⟩ := (h.steady he).permits hpath
  have hread : movesOf i es =
      (front ++ [.access (.poll (.step step)) false]) ++ [.access .read store] :=
    hmoves.trans (List.append_assoc front [_] [_]).symm
  obtain rfl := h.looked hread
  exact ⟨step, front, hscript, hrecords, hmoves⟩

/-- An execution that has just recorded a trigger found the run unclaimed. -/
theorem Trace.won_of_pending (h : Trace (fresh name options config values e script) es s)
    (hi : Pending (movesOf i es)) : Won es i := by
  by_contra hlost
  obtain ⟨move, hmove, htrigger⟩ := hi
  rw [h.asks hlost move (List.mem_of_getLast? hmove)] at htrigger
  cases htrigger

/-- As many triggers are recorded as successes written, but for one that waits for its step. -/
theorem Trace.balanced (h : Trace (fresh name options config values e script) es s)
    (he : ∀ i, (e i).registry = .builtins) :
    ((∀ i, ¬Pending (movesOf i es)) → (recorded es).length = (successes es).length) ∧
      ∀ i, Pending (movesOf i es) → (recorded es).length = (successes es).length + 1 := by
  rcases h.filterMap_moves with ⟨w, hw, hmoves⟩ | ⟨hnone, hmoves⟩
  · rw [recorded, successes, hmoves Move.trigger? rfl, hmoves Move.success? rfl]
    obtain ⟨hsettled, hunderway⟩ :=
      (Engine.execute_steady (he w) name (script w)).balanced (h.path w)
    refine ⟨fun hquiet => hsettled (hquiet w), fun i hi => ?_⟩
    obtain rfl := (orderly h).winner (h.won_of_pending hi) hw
    exact hunderway hi
  · rw [recorded, successes, hmoves Move.trigger? rfl, hmoves Move.success? rfl]
    exact ⟨fun _ => rfl, fun i hi => absurd (h.won_of_pending hi) (hnone i)⟩

/-- When the run has ended, no trigger waits for its step. -/
theorem Trace.not_pending_of_terminal
    (h : Trace (fresh name options config values e script) es s) (he : (e i).registry = .builtins)
    (hr : s.run.status.isTerminal = true) : ¬Pending (movesOf i es) := by
  intro hi
  obtain ⟨result, hdone⟩ := (h.result (h.won_of_pending hi)).1.mp hr
  have hkeeps := h.steady he
  rw [hdone] at hkeeps
  exact hkeeps hi

/-! ## What is known of the triggers -/

/-- What is known of the triggers of a run that several callers execute, after these events. -/
structure Deferred (start : Shared ι) (e : ι → Engine) (script : ι → Script) (es : List (Event ι))
    (s : Shared ι) : Prop where
  /-- Every trigger has what its kind needs. -/
  valid {t : Trigger} : t ∈ s.run.triggers.toList → t.Valid
  /-- The triggers are those that were recorded, in their order, -/
  recorded : s.run.triggers.toList = recorded es
  /-- each for a step that stands in the script of its execution: its steps are those of this step
  as they were written, and its other parts are filled with the variables of this moment, at which
  the step had just looked. -/
  faithful {before later : List (Event ι)} {i : ι} {t : Trigger} :
    es = before ++ .call i (.access (.record t) ()) :: later →
    ∃ s₁ s₂ step front, Trace start before s₁ ∧
      Happens s₁ (.call i (.access (.record t) ())) s₂ ∧ Trace s₂ later s ∧
      (script i).Has step ∧ (e i).Records step s₁.run.store t ∧
      movesOf i before =
        front ++ [.access (.poll (.step step)) false, .access .read s₁.run.store]
  /-- Triggers are only added, and behind the others. -/
  appended {later : List (Event ι)} {s' : Shared ι} : Trace s later s' →
    s.run.triggers.toList <+: s'.run.triggers.toList
  /-- A step that asks for a trigger and succeeds records one, and writes its success behind it. -/
  succeeds {i : ι} {step : Step} {moves : List Move} {o : Outcome} :
    step.action? = some "trigger" → ((e i).dispatch step).Path moves (.done o) →
    o.isError = false →
    ∃ store t, (e i).Records step store t ∧ moves = Engine.recordingMoves step store t o
  /-- It does succeed if it has what it needs and is made ready. -/
  accepted {i : ι} {step step' : Step} {store : Store} : step.action? = some "trigger" →
    (e i).actionOf step = .ok (.ofKind .trigger) →
    (e i).ready (.ofKind .trigger) store step = .ok step' →
    ∃ t o, o.isError = false ∧ (e i).Records step store t ∧
      ((e i).dispatch step).Path (Engine.recordingMoves step store t o) (.done o)
  /-- There are as many triggers as such successes, -/
  counted : (∀ i, ¬Pending (movesOf i es)) → s.run.triggers.size = (successes es).length
  /-- but for the moment between the two, -/
  underway (i : ι) : Pending (movesOf i es) → s.run.triggers.size = (successes es).length + 1
  /-- which has passed when the run has ended. -/
  ended : s.run.status.isTerminal = true → s.run.triggers.size = (successes es).length

/-- The triggers of a new run that several callers execute, each with an engine and a script of his
own, are those its steps ask for, whatever happens in whatever order. -/
theorem deferred (he : ∀ i, (e i).registry = .builtins)
    (h : Trace (fresh name options config values e script) es s) :
    Deferred (fresh name options config values e script) e script es s := by
  have hrecorded : s.run.triggers.toList = recorded es := h.triggers_eq
  -- Each record was made by the step that the execution has just looked at the variables for.
  have hfaithful {before later : List (Event ι)} {i : ι} {t : Trigger}
      (hes : es = before ++ .call i (.access (.record t) ()) :: later) :
      ∃ s₁ s₂ step front, Trace (fresh name options config values e script) before s₁ ∧
        Happens s₁ (.call i (.access (.record t) ())) s₂ ∧ Trace s₂ later s ∧
        (script i).Has step ∧ (e i).Records step s₁.run.store t ∧
        movesOf i before =
          front ++ [.access (.poll (.step step)) false, .access .read s₁.run.store] := by
    subst hes
    obtain ⟨s₁, s₂, h₁, hstep, hlater⟩ := h.at_event
    obtain ⟨step, front, hscript, hrecords, hmoves⟩ := h₁.records (he i) hstep
    exact ⟨s₁, s₂, step, front, h₁, hstep, hlater, hscript, hrecords, hmoves⟩
  have hsize : s.run.triggers.size = (recorded es).length := by
    rw [← hrecorded, Array.length_toList]
  obtain ⟨hsettled, hunderway⟩ := h.balanced he
  exact {
    valid := by
      intro t ht
      rw [hrecorded] at ht
      obtain ⟨move, hmove, htrigger⟩ := List.mem_filterMap.mp ht
      obtain ⟨event, hevent, hcall⟩ := List.mem_filterMap.mp hmove
      obtain ⟨i, rfl⟩ := Event.eq_call hcall
      obtain rfl := Move.eq_record htrigger
      obtain ⟨before, later, hes⟩ := List.append_of_mem hevent
      obtain ⟨_, _, _, _, -, -, -, -, hrecords, -⟩ := hfaithful hes
      exact hrecords.valid
    recorded := hrecorded
    faithful := hfaithful
    appended := fun hlater => ⟨_, hlater.triggers_eq.symm⟩
    succeeds := fun hs hpath ho => Engine.dispatch_trigger_path (he _) hs hpath ho
    accepted := fun hs hd hready => Engine.dispatch_trigger_ready (he _) hs hd hready
    counted := fun hquiet => hsize.trans (hsettled hquiet)
    underway := fun i hi => hsize.trans (hunderway i hi)
    ended := fun hr => hsize.trans (hsettled fun i => h.not_pending_of_terminal (he i) hr) }

/-- A loop makes two passes over a branch that asks for a trigger. The event is filled anew in each
pass, and the step that waits for it stays as it was written. -/
theorem deferred_nested :
    let intent : Step := ⟨[("action", .str "trigger"), ("type", .str "event_based"),
      ("event", .str "pass $\x7bloop_index\x7d"),
      ("steps", .list [.dict [("action", .str "print_msg"), ("message", .str "$\x7bname\x7d")]])]⟩
    let branch : Step := ⟨[("action", .str "condition"), ("condition", .bool true),
      ("if_true", .list [intent.toValue]), ("if_false", .list [])]⟩
    let twice : Step := ⟨[("action", .str "loop"), ("iterations", .int 2),
      ("loop_steps", .list [branch.toValue])]⟩
    let e : Unit → Engine := fun _ => {}
    let script : Unit → Script := fun _ => .steps [twice]
    let start := fresh "nested" {} {} [("name", .str "late")] e script
    (∀ i, (e i).registry = .builtins) ∧
      ∃ es s, Trace start es s ∧ Deferred start e script es s ∧ (successes es).length = 2 ∧
        s.run.triggers.toList.map (fun t => t.setting.text?) = [some "pass 0", some "pass 1"] ∧
        s.run.triggers.toList.flatMap (fun t => t.steps.map fun v =>
          (Step.ofValue? v).bind fun later => later.text? "message") =
            [some "$\x7bname\x7d", some "$\x7bname\x7d"] := by
  intro intent branch twice e script start
  have hnew : Trace start [] start := .start
  obtain ⟨s, htrace, hrun⟩ := hnew.run (i := ()) Wait.quiet rfl ()
  have he : ∀ i, (e i).registry = .builtins := fun _ => rfl
  have hdeferred := deferred he htrace
  refine ⟨he, _, s, htrace, hdeferred, ?_, ?_, ?_⟩
  · decide +kernel
  · rw [hrun]
    decide +kernel
  · rw [hrun]
    decide +kernel

end Fresh

end Shared

end Stepwise
