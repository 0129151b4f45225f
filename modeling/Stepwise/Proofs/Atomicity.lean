import Stepwise.Proofs.Recording

/-!
# Failed steps leave no trace

A step can fail in two places. It is refused before its action is asked to do anything, and then the
run is as it was. Or its action fails, and then, unless the action runs other steps, it has written
nothing: an action works out everything that can fail before it sets the first variable, prints the
first line or records a trigger. Such a step leaves its entry in the history and nothing else.

* `Engine.Refuses`: why a step is refused, in the order in which it is looked at.
* `Attempt.AllOrNothing`: an attempt that fails has changed nothing.
* `Engine.carryOut_allOrNothing`: so it is with every action that runs no other steps.
* `Engine.dispatch_error_untouched`: what a failed step leaves of its run.
-/

namespace Stepwise

variable {α β σ τ : Type}

theorem Attempt.run_access_eq (world : World σ) (c : Run.Access) (r : Run) (s : σ) :
    (access c).run.run world r s =
      (.ok (c.perform (world.meanwhile r s).1).1, (c.perform (world.meanwhile r s).1).2,
        (world.meanwhile r s).2) := rfl

theorem Run.store_marked (r : Run) (b : Bool) : (r.marked b).store = r.store := rfl

/-! ## Steps that are refused -/

namespace Engine

/-- Why a step is refused before its action is asked, when the run stands so. -/
inductive Refuses (e : Engine) (r : Run) (s : Step) : Cause → Prop
  | cancelled : r.cancelled = true → Refuses e r s .cancelled
  | unnamed : r.cancelled = false → s.action? = none → Refuses e r s .missingAction
  | unknown {name : String} : r.cancelled = false → s.action? = some name →
      e.registry.find? name = none → Refuses e r s (.unknownAction name)
  | incomplete {name : String} {d : Descriptor} {field : String} : r.cancelled = false →
      s.action? = some name → e.registry.find? name = some d → d.missing? s = some field →
      Refuses e r s (.missingField name field)
  | unfilled {d : Descriptor} {c : Cause} : r.cancelled = false → e.actionOf s = .ok d →
      e.fieldsRead d r.store s.fields = .error c → Refuses e r s c
  | rejected {d : Descriptor} {s' : Step} {c : Cause} : r.cancelled = false →
      e.actionOf s = .ok d → e.HandedOver d r.store s s' → d.handler.check s' = .error c →
      Refuses e r s c

variable {e : Engine} {d : Descriptor} {r : Run} {s : Step} {c : Cause} {world : World τ}

theorem refuses_of_actionOf (hr : r.cancelled = false) (h : e.actionOf s = .error c) :
    e.Refuses r s c := by
  unfold actionOf Registry.lookup at h
  split at h
  · rename_i name hname
    obtain h | ⟨d, hd, h⟩ := Except.bind_eq_error.mp h
    · split at h
      · cases h
      · rename_i hfind
        cases h
        exact .unknown hr hname hfind
    · split at hd
      · rename_i hfind
        cases hd
        split at h
        · rename_i field hfield
          cases h
          exact .incomplete hr hname hfind hfield
        · cases h
      · cases hd
  · rename_i hname
    cases h
    exact .unnamed hr (Option.eq_none_iff_forall_ne_some.mpr hname)

theorem refuses_of_ready (hr : r.cancelled = false) (hd : e.actionOf s = .ok d)
    (h : e.ready d r.store s = .error c) : e.Refuses r s c := by
  obtain h | ⟨fields, hf, h⟩ := Except.bind_eq_error.mp h
  · exact .unfilled hr hd h
  · obtain h | ⟨_, -, h⟩ := Except.bind_eq_error.mp h
    · exact .rejected hr hd ⟨fields, hf, rfl⟩ h
    · cases h

/-- What preparing a step gives when the run stands so. -/
def preparation (e : Engine) (r : Run) (s : Step) : Except Cause (Descriptor × Step) := do
  if r.cancelled then .error .cancelled
  let d ← e.actionOf s
  return (d, ← e.ready d r.store s)

theorem preparation_of_cancelled (h : r.cancelled = true) :
    e.preparation r s = .error .cancelled := by
  unfold preparation
  rw [if_pos h]
  rfl

theorem preparation_of_not_cancelled (h : r.cancelled = false) :
    e.preparation r s = (do
      let d ← e.actionOf s
      return (d, ← e.ready d r.store s)) := by
  unfold preparation
  rw [h]
  rfl

/-- A step is refused for one of these reasons, and for no other. -/
theorem preparation_eq_error : e.preparation r s = .error c ↔ e.Refuses r s c := by
  constructor
  · -- In the order of the checks: the mark of the run, the action, the fields.
    intro h
    cases hr : r.cancelled with
    | true =>
      rw [preparation_of_cancelled hr] at h
      cases h
      exact .cancelled hr
    | false =>
      rw [preparation_of_not_cancelled hr] at h
      obtain h | ⟨d, hd, h⟩ := Except.bind_eq_error.mp h
      · exact refuses_of_actionOf hr h
      · obtain h | ⟨_, -, h⟩ := Except.bind_eq_error.mp h
        · exact refuses_of_ready hr hd h
        · cases h
  · intro h
    -- Every reason belongs to one of the checks, and the checks before it were passed.
    have ready {d : Descriptor} {c : Cause} (hr : r.cancelled = false) (hd : e.actionOf s = .ok d)
        (h : e.ready d r.store s = .error c) : e.preparation r s = .error c := by
      rw [preparation_of_not_cancelled hr]
      exact Except.bind_eq_error.mpr (.inr ⟨d, hd, Except.bind_eq_error.mpr (.inl h)⟩)
    have action {c : Cause} (hr : r.cancelled = false) (h : e.actionOf s = .error c) :
        e.preparation r s = .error c := by
      rw [preparation_of_not_cancelled hr]
      exact Except.bind_eq_error.mpr (.inl h)
    cases h with
    | cancelled hr => exact preparation_of_cancelled hr
    | unnamed hr hname =>
      refine action hr ?_
      rw [actionOf, hname]
    | unknown hr hname hfind =>
      refine action hr ?_
      simp only [actionOf, hname, Registry.lookup, hfind, bind, Except.bind]
    | incomplete hr hname hfind hfield =>
      refine action hr ?_
      simp only [actionOf, hname, Registry.lookup, hfind, bind, Except.bind, hfield]
    | unfilled hr hd hf => exact ready hr hd (Except.bind_eq_error.mpr (.inl hf))
    | rejected hr hd hand hc =>
      obtain ⟨fields, hf, rfl⟩ := hand
      refine ready hr hd (Except.bind_eq_error.mpr (.inr ⟨fields, hf, ?_⟩))
      exact Except.bind_eq_error.mpr (.inl hc)

theorem preparation_eq_ok {s' : Step} (h : e.preparation r s = .ok (d, s')) :
    e.actionOf s = .ok d ∧ e.ready d r.store s = .ok s' := by
  cases hr : r.cancelled with
  | true =>
    rw [preparation_of_cancelled hr] at h
    cases h
  | false =>
    rw [preparation_of_not_cancelled hr] at h
    obtain ⟨d, hd, h⟩ := Except.bind_eq_ok.mp h
    obtain ⟨s', hs, h⟩ := Except.bind_eq_ok.mp h
    cases h
    exact ⟨hd, hs⟩

theorem preparation_of_ready {s' : Step} (hr : r.cancelled = false) (hd : e.actionOf s = .ok d)
    (hs : e.ready d r.store s = .ok s') : e.preparation r s = .ok (d, s') := by
  rw [preparation_of_not_cancelled hr]
  exact Except.bind_eq_ok.mpr ⟨d, hd, Except.bind_eq_ok.mpr ⟨s', hs, rfl⟩⟩

/-- Preparing a step leaves the run alone, and depends on how the step finds it. -/
theorem run_prepare_eq (hw : world.OnlyCancels) (e : Engine) (s : Step) (r : Run) (t : τ) :
    ∃ b t', (e.prepare s).run.run world r t =
      (e.preparation (world.meanwhile r t).1 s, r.marked b, t') := by
  -- The run may be cancelled before the step looks at the mark, or before it reads the store.
  obtain ⟨b, hb⟩ : ∃ b, (world.meanwhile r t).1 = r.marked b := hw.meanwhile_marked r r.cancelled t
  rw [prepare, Attempt.run_bind, Attempt.run_access_eq, hb]
  cases hr : (r.marked b).cancelled with
  | true =>
    rw [preparation_of_cancelled hr]
    simp only [Run.Access.perform, hr, if_true]
    exact ⟨b, _, rfl⟩
  | false =>
    rw [preparation_of_not_cancelled hr]
    simp only [Run.Access.perform, hr, Bool.false_eq_true, if_false]
    rw [Attempt.run_bind, Attempt.run_settled]
    cases e.actionOf s with
    | error c => exact ⟨b, _, rfl⟩
    | ok d =>
      obtain ⟨b', hb'⟩ := hw.meanwhile_marked r b (world.meanwhile r t).2
      show ∃ b t', _ = (e.ready d r.store s >>= fun s' => pure (d, s'), r.marked b, t')
      dsimp only
      rw [Attempt.run_bind, Attempt.run_access_eq, hb']
      dsimp only [Run.Access.perform]
      rw [Attempt.run_bind, Attempt.run_settled, Run.store_marked]
      cases e.ready d r.store s with
      | error c => exact ⟨b', _, rfl⟩
      | ok s' => exact ⟨b', _, rfl⟩

/-- A refused step ends as it was refused, and the run is as before. -/
theorem run_dispatch_refused (hw : world.OnlyCancels) {t : τ}
    (h : e.Refuses (world.meanwhile r t).1 s c) :
    ∃ b t', (e.dispatch s).run world r t = (e.failure s.action? c, r.marked b, t') := by
  obtain ⟨b, t', hp⟩ := run_prepare_eq hw e s r t
  rw [preparation_eq_error.mpr h] at hp
  refine ⟨b, t', ?_⟩
  rw [dispatch_eq, dispatchWith]
  show (Process.bind _ _).run _ _ _ = _
  rw [Process.run_bind, hp]
  rfl

end Engine

/-! ## Actions that fail -/

namespace Attempt

/-- The changes of a run are noted. -/
def changes : Watch (List Run.Access) := (Monitor.recording Run.Access.isChange).watch

/-- The attempt only looks at the run. -/
def Looks (x : Attempt α) : Prop := ∀ g, x.Keeps changes (fun _ g' => g' = g) (fun _ g' => g' = g) g

/-- The attempt gives an outcome that is no error, whatever it is answered. -/
def Succeeds (x : Attempt Outcome) : Prop :=
  ∀ g, x.Keeps changes (fun o _ => o.isError = false) (fun _ _ => False) g

/-- What the attempt gives is no error, and if it fails, it has changed nothing. -/
def AllOrNothing (x : Attempt Outcome) : Prop :=
  ∀ g, x.Keeps changes (fun o _ => o.isError = false) (fun _ g' => g' = g) g

theorem looks_read : Looks (access .read) := fun _ => .access trivial fun _ => rfl

theorem looks_settled (x : Except Cause α) : Looks (settled x) :=
  fun _ => .settled (fun _ _ => rfl) fun _ _ => rfl

theorem looks_wait (w : Wait) : Looks (wait w) := fun _ => .wait trivial fun _ => rfl

theorem Looks.bind {x : Attempt α} {f : α → Attempt β} (hx : x.Looks) (hf : ∀ a, (f a).Looks) :
    (x >>= f).Looks := by
  refine fun g => .bind ((hx g).mono (fun a g' hg => ?_) fun _ _ h => h)
  rw [hg]
  exact hf a g

theorem succeeds_pure {o : Outcome} (h : o.isError = false) : Succeeds (pure o) := fun _ => .pure h

/-- A change cannot fail. -/
theorem succeeds_bind {c : Run.Access} {f : c.Answer → Attempt Outcome}
    (hf : ∀ x, (f x).Succeeds) : (access c >>= f).Succeeds :=
  fun _ => .bind (.access trivial fun x => hf x _)

theorem Succeeds.allOrNothing {x : Attempt Outcome} (h : x.Succeeds) : x.AllOrNothing :=
  fun g => (h g).mono (fun _ _ h => h) fun _ _ h => h.elim

theorem allOrNothing_throw (c : Cause) : AllOrNothing (throw c) := fun _ => .throw rfl

/-- Looking comes first. -/
theorem Looks.allOrNothing {x : Attempt α} {f : α → Attempt Outcome} (hx : x.Looks)
    (hf : ∀ a, (f a).AllOrNothing) : (x >>= f).AllOrNothing := by
  refine fun g => .bind ((hx g).mono (fun a g' hg => ?_) fun _ _ h => h)
  rw [hg]
  exact hf a g

end Attempt

namespace Engine

open Attempt

variable {e : Engine}

theorem valueOf_looks (v : Value) (evaluated : Bool) : (valueOf v evaluated).Looks := by
  unfold valueOf
  split
  · exact looks_read.bind fun store => looks_settled _
  · exact fun _ => .pure rfl

theorem report_succeeds (code : Option Nat) (out err : List UInt8) :
    (report code out err).Succeeds := by
  unfold report
  refine succeeds_bind fun _ => succeeds_bind fun _ => ?_
  exact succeeds_bind fun _ => succeeds_bind fun _ => succeeds_bind fun _ => succeeds_pure rfl

theorem carryOutCommand_allOrNothing (e : Engine) (spec : Command.Spec) (shell : Bool)
    (timeout : Option Float) : (e.carryOutCommand spec shell timeout).AllOrNothing := by
  unfold carryOutCommand
  dsimp only
  split
  · exact allOrNothing_throw _
  · refine (looks_wait _).allOrNothing fun x => ?_
    cases x with
    | ended code out err => exact (report_succeeds code out err).allOrNothing
    | unstarted | timedOut | interrupted => exact allOrNothing_throw _

/-- The body of a response is decoded before anything is stored. -/
theorem store_allOrNothing (r : Http.Request) (response : Http.Response) :
    (Engine.store r response).AllOrNothing := by
  refine (looks_settled _).allOrNothing fun body => Succeeds.allOrNothing ?_
  refine succeeds_bind fun _ => ?_
  dsimp only
  split
  · refine succeeds_bind fun _ => ?_
    exact succeeds_bind fun _ => succeeds_bind fun _ => succeeds_pure rfl
  · exact succeeds_bind fun _ => succeeds_bind fun _ => succeeds_pure rfl

theorem carryOutRequest_allOrNothing (e : Engine) (r : Http.Request) :
    (e.carryOutRequest r).AllOrNothing := by
  unfold carryOutRequest
  split
  · exact allOrNothing_throw _
  · split
    · exact allOrNothing_throw _
    · refine (looks_wait _).allOrNothing fun x => ?_
      cases x with
      | answered response => exact store_allOrNothing r response
      | failed | interrupted => exact allOrNothing_throw _

/-- An action that runs no other steps fails before it has changed anything. -/
theorem carryOut_allOrNothing (e : Engine) (lists : String → Process (Except Outcome Nat))
    {a : Action} (hc : a.kind ≠ .condition) (hl : a.kind ≠ .loop) :
    (e.carryOut lists a).AllOrNothing := by
  -- An action changes the run at its end at the earliest, behind all that can fail.
  cases a with
  | assign name v evaluated =>
    refine (valueOf_looks v evaluated).allOrNothing fun v => Succeeds.allOrNothing ?_
    exact succeeds_bind fun _ => succeeds_pure rfl
  | print message evaluated =>
    refine (valueOf_looks message evaluated).allOrNothing fun v => Succeeds.allOrNothing ?_
    exact succeeds_bind fun _ => succeeds_pure rfl
  | command spec shell timeout => exact carryOutCommand_allOrNothing e spec shell timeout
  | evaluate expression =>
    exact (valueOf_looks _ true).allOrNothing fun v => (succeeds_pure rfl).allOrNothing
  | choose condition => exact absurd rfl hc
  | iterate mode limit => exact absurd rfl hl
  | pause seconds evaluated =>
    refine (valueOf_looks seconds evaluated).allOrNothing fun v => ?_
    refine (looks_settled _).allOrNothing fun x => (looks_wait _).allOrNothing fun lasted => ?_
    cases lasted with
    | true => exact (succeeds_pure rfl).allOrNothing
    | false => exact allOrNothing_throw _
  | record trigger message =>
    exact Succeeds.allOrNothing (succeeds_bind fun _ => succeeds_pure rfl)
  | request r => exact carryOutRequest_allOrNothing e r
  | merge sources target =>
    refine looks_read.allOrNothing fun store => (looks_settled _).allOrNothing fun entries => ?_
    exact Succeeds.allOrNothing (succeeds_bind fun _ => succeeds_pure rfl)

theorem handle_allOrNothing (e : Engine) (lists : String → Process (Except Outcome Nat))
    {k : Action.Kind} (hc : k ≠ .condition) (hl : k ≠ .loop) (s : Step) :
    (e.handle lists (.ofKind k) s).AllOrNothing := by
  refine fun g => .bind (.settled (fun a ha => ?_) fun _ _ => rfl)
  obtain rfl := Action.read_kind k s a ha
  exact carryOut_allOrNothing e lists hc hl g

/-! ## Steps that fail -/

/-- A step that runs no other steps makes no change if it fails, but for its entry in the
history. -/
theorem dispatch_records (e : Engine) {k : Action.Kind} (hc : k ≠ .condition) (hl : k ≠ .loop)
    {s : Step} (ha : s.action? = some k.name) (he : e.registry.find? k.name = some (.ofKind k)) :
    (e.dispatch s).Meets (.recording Run.Access.isChange)
      (fun o g => o.isError = true → g = [] ∨ g = [.log ⟨k.name, o⟩]) [] := by
  rw [dispatch_eq]
  refine dispatchWith_meets trivial (Monitor.recording_ignores rfl) (fun c _ _ => .inl rfl)
    fun d s' hp => Attempt.meets_iff_keeps.mpr ?_
  obtain ⟨name, hname, hd, -⟩ := actionOf_eq_ok.mp hp.action
  obtain rfl : k.name = name := Option.some.inj (ha.symm.trans hname)
  obtain rfl : .ofKind k = d := Option.some.inj (he.symm.trans hd)
  refine (handle_allOrNothing e _ hc hl s' []).mono (fun o g ho => ⟨trivial, fun h => ?_⟩)
    fun c g hg => ⟨trivial, fun _ => .inr ?_⟩
  · rw [ho] at h
    cases h
  · rw [hg]
    rfl

/-- A failed step leaves its run untouched. If it is refused before its action is asked, nothing of
the run changes, and no entry is written; and a step of one of the actions that run no other steps
leaves no more than its entry in the history when it fails, whatever the reason. All that may have
changed besides is that the run has been cancelled meanwhile. -/
theorem dispatch_error_untouched {world : World τ} (hw : world.OnlyCancels) (e : Engine) (s : Step)
    (r : Run) (t : τ) :
    (∀ c, ((e.prepare s).run.run world r t).1 = .error c ↔
      e.Refuses (world.meanwhile r t).1 s c) ∧
    (∀ c, e.Refuses (world.meanwhile r t).1 s c →
      ∃ b t', (e.dispatch s).run world r t = (e.failure s.action? c, r.marked b, t')) ∧
    (∀ k : Action.Kind, k ≠ .condition → k ≠ .loop → s.action? = some k.name →
      e.registry.find? k.name = some (.ofKind k) →
      ((e.dispatch s).run world r t).1.isError = true →
      ∃ b, ((e.dispatch s).run world r t).2.1 = r.marked b ∨
        ((e.dispatch s).run world r t).2.1 =
          (r.log ⟨k.name, ((e.dispatch s).run world r t).1⟩).marked b) := by
  refine ⟨fun c => ?_, fun c h => run_dispatch_refused hw h, fun k hc hl ha he herror => ?_⟩
  · obtain ⟨b, t', hp⟩ := run_prepare_eq hw e s r t
    rw [hp]
    exact preparation_eq_error
  · obtain ⟨b, hb⟩ := Process.run_eq_foldl hw (e.dispatch s) r r.cancelled t
    rw [Run.marked_eq rfl] at hb
    refine ⟨b, ?_⟩
    rcases (dispatch_records e hc hl ha he).recorded world r t herror with h | h
    · rw [h] at hb
      exact .inl hb
    · rw [h] at hb
      exact .inr hb

/-- Data is combined from a dictionary and from nothing. When the run is cancelled before the step
is prepared, there is no trace of it, and when the second source is refused, there is an entry in
the history, but no variable. -/
theorem dispatch_error_untouched_merge :
    let s : Step := ⟨[("action", .str "combine_data"),
      ("data_sources", .list [.dict [("a", .int 1)], .null])]⟩
    let e : Engine := {}
    let r := Run.create "merge" { logsHistory := true } e.config
    let world := World.cancelling Wait.quiet
    let o := ((e.dispatch s).run world r (9, ())).1
    world.OnlyCancels ∧ e.Refuses (world.meanwhile r (0, ())).1 s .cancelled ∧
      (∃ b t', (e.dispatch s).run world r (0, ()) =
        (e.failure (some "combine_data") .cancelled, r.marked b, t')) ∧
      o.category = some .invalidField ∧
      ∃ b, ((e.dispatch s).run world r (9, ())).2.1 = (r.log ⟨"combine_data", o⟩).marked b := by
  intro s e r world o
  have hw : world.OnlyCancels := (World.cancelling_mayCancel Wait.quiet).onlyCancels
  have hc : e.Refuses (world.meanwhile r (0, ())).1 s .cancelled := .cancelled rfl
  obtain ⟨-, hrefused, -⟩ := dispatch_error_untouched hw e s r (0, ())
  obtain ⟨-, -, hfailed⟩ := dispatch_error_untouched hw e s r (9, ())
  obtain ⟨b, hb⟩ := hfailed .combineData (by decide) (by decide) rfl rfl rfl
  refine ⟨hw, hc, hrefused _ hc, rfl, b, hb.resolve_left fun h => ?_⟩
  exact Nat.one_ne_zero (congrArg (fun r => r.history.size) h)

end Engine

end Stepwise
