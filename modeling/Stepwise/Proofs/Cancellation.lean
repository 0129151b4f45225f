import Stepwise.Proofs.Invariant
import Stepwise.Run.Timeline

/-!
# Cancelling a run

A run may be cancelled between any two things its process does, and while the process waits. The
process learns of it when it looks next, or because a wait is cut short; until then it does what it
would have done anyway, and from then on it has no effect any more and ends cancelled.

* `World.OnlyCancels`: a world that does nothing to a run but cancel it.
* `World.MayCancel`: such a world that answers as another one does.
* `Watch.heeding`: no effect after the process has learned that its run was cancelled.
* `Process.run_cut`: a process that heeds cancellation, against the same process left alone.
* `Engine.execute_cut_short`: the law for scripts.
-/

namespace Stepwise

variable {α σ τ : Type}

/-! ## Effects -/

/-- The access writes a variable, prints a line or records a trigger. -/
def Run.Access.isEffect : Run.Access → Bool
  | .assign .. | .print _ | .record _ => true
  | _ => false

theorem Run.Access.isEffect_of_tells {c : Run.Access} {x : c.Answer} (h : c.tells x = true) :
    c.isEffect = false := by
  cases c with
  | poll => rfl
  | _ => cases h

namespace Process

/-- The effects of a process in a world, in their order. -/
def effects (world : World σ) (p : Process α) (r : Run) (s : σ) : List Run.Access :=
  (p.accesses world r s).filter Run.Access.isEffect

theorem effects_access (world : World σ) (c : Run.Access) (next : c.Answer → Process α) (r : Run)
    (s : σ) :
    (access c next).effects world r s =
      (if c.isEffect then [c] else []) ++
        (next (c.perform (world.meanwhile r s).1).1).effects world
          (c.perform (world.meanwhile r s).1).2 (world.meanwhile r s).2 := by
  rw [effects, accesses_access, List.filter_cons]
  split
  · rfl
  · rfl

theorem effects_wait (world : World σ) (w : Wait) (next : w.Answer → Process α) (r : Run) (s : σ) :
    (wait w next).effects world r s =
      (next (world.await w r s).1).effects world (world.await w r s).2.1
        (world.await w r s).2.2 := rfl

end Process

/-! ## The mark of a cancellation -/

namespace Run

/-- The run, cancelled or not. -/
def marked (r : Run) (cancelled : Bool) : Run := { r with cancelled }

theorem marked_eq {r : Run} {cancelled : Bool} (h : r.cancelled = cancelled) :
    r.marked cancelled = r := by
  subst h
  rfl

theorem cancel_eq {r : Run} (h : r.cancelled = true) : r.cancel = r := marked_eq h

theorem enter_marked (r : Run) (b : Bool) (index : Nat) :
    (r.marked b).enter index = (r.enter index).marked b := by
  unfold enter marked
  split
  · rfl
  · rfl

theorem log_marked (r : Run) (b : Bool) (entry : Entry) :
    (r.marked b).log entry = (r.log entry).marked b := by
  unfold log marked
  split
  · rfl
  · rfl

/-- The mark changes nothing but what the process is told of it. -/
theorem perform_marked (c : Access) (r : Run) (b : Bool) :
    (c.perform (r.marked b)).2 = (c.perform r).2.marked b := by
  cases c with
  | enter index => exact enter_marked r b index
  | log entry => exact log_marked r b entry
  | _ => rfl

/-- What tells of no cancellation is answered alike. -/
theorem answer_marked {c : Access} {r : Run} {b : Bool} (hr : r.cancelled = false)
    (h : c.tells (c.perform (r.marked b)).1 = false) :
    (c.perform (r.marked b)).1 = (c.perform r).1 := by
  cases c with
  | poll => exact h.trans hr.symm
  | _ => rfl

end Run

/-! ## Worlds that cancel -/

/-- A world that does nothing to a run but cancel it. -/
structure World.OnlyCancels (world : World τ) : Prop where
  meanwhile : ∀ r t, (world.meanwhile r t).1 = r ∨ (world.meanwhile r t).1 = r.cancel
  await : ∀ w r t, (world.await w r t).2.1 = r ∨ (world.await w r t).2.1 = r.cancel

namespace World.OnlyCancels

variable {world : World τ} (hw : world.OnlyCancels)
include hw

theorem meanwhile_marked (r : Run) (b : Bool) (t : τ) :
    ∃ b', (world.meanwhile (r.marked b) t).1 = r.marked b' := by
  rcases hw.meanwhile (r.marked b) t with h | h
  · exact ⟨b, h⟩
  · exact ⟨true, h⟩

theorem await_marked (w : Wait) (r : Run) (b : Bool) (t : τ) :
    ∃ b', (world.await w (r.marked b) t).2.1 = r.marked b' := by
  rcases hw.await w (r.marked b) t with h | h
  · exact ⟨b, h⟩
  · exact ⟨true, h⟩

/-- A run that is cancelled stays as it is. -/
theorem meanwhile_cancelled {r : Run} (hr : r.cancelled = true) (t : τ) :
    (world.meanwhile r t).1 = r := by
  have := hw.meanwhile r t
  rwa [Run.cancel_eq hr, or_self] at this

theorem await_cancelled {r : Run} (hr : r.cancelled = true) (w : Wait) (t : τ) :
    (world.await w r t).2.1 = r := by
  have := hw.await w r t
  rwa [Run.cancel_eq hr, or_self] at this

end World.OnlyCancels

/-- A world that does nothing to the run but cancel it. Waits give what `answer` says, where `view`
is the part of the world it looks at, unless they are cut short by the cancellation. -/
structure World.MayCancel (world : World τ) (answer : (w : Wait) → σ → w.Answer × σ)
    (view : τ → σ) : Prop where
  meanwhile : ∀ r t, (world.meanwhile r t).1 = r ∨ (world.meanwhile r t).1 = r.cancel
  unseen : ∀ r t, view (world.meanwhile r t).2 = view t
  await : ∀ w r t, (world.await w r t).2.1 = r ∨ (world.await w r t).2.1 = r.cancel
  answers : ∀ w r t,
    (world.await w r t).1 = (answer w (view t)).1 ∧
        view (world.await w r t).2.2 = (answer w (view t)).2 ∨
      w.tells (world.await w r t).1 = true ∧ (world.await w r t).2.1.cancelled = true

theorem World.MayCancel.onlyCancels {world : World τ} {answer : (w : Wait) → σ → w.Answer × σ}
    {view : τ → σ} (hw : world.MayCancel answer view) : world.OnlyCancels := ⟨hw.meanwhile, hw.await⟩

/-- The world in which the run is cancelled after so many accesses. -/
def World.cancelling (answer : (w : Wait) → σ → w.Answer × σ) : World (Nat × σ) where
  meanwhile
    | r, (0, s) => (r.cancel, 0, s)
    | r, (n + 1, s) => (r, n, s)
  await w r t := ((answer w t.2).1, r, t.1, (answer w t.2).2)

theorem World.cancelling_mayCancel (answer : (w : Wait) → σ → w.Answer × σ) :
    (cancelling answer).MayCancel answer Prod.snd where
  meanwhile
    | _, (0, _) => .inr rfl
    | _, (_ + 1, _) => .inl rfl
  unseen
    | _, (0, _) => rfl
    | _, (_ + 1, _) => rfl
  await _ _ _ := .inl rfl
  answers _ _ _ := .inl ⟨rfl, rfl⟩

namespace Wait

theorem ending_answer (w : Wait) (now : Nat) : (w.ending now).2 = (w.ending 0).2 := by
  cases w with
  | execute command timeout =>
    simp only [ending]
    split
    · rfl
    · split
      · rfl
      · rfl
  | _ => rfl

theorem tells_interrupted {w : Wait} (h : w.isTurn = false) : w.tells w.interrupted = true := by
  cases w with
  | turn => cases h
  | _ => rfl

end Wait

/-- Time only cancels runs. -/
theorem Timeline.world_mayCancel :
    Timeline.world.MayCancel (fun w (_ : Unit) => ((w.ending 0).2, ())) fun _ => () where
  meanwhile _ _ := .inl rfl
  unseen _ _ := rfl
  await w r t := by
    simp only [world]
    -- A wait that takes no time leaves the run alone; in any other it may be cancelled first.
    split
    · exact .inl rfl
    · split
      · simp only [cancelled]
        split
        · exact .inr rfl
        · exact .inl rfl
      · split
        · exact .inr rfl
        · exact .inl rfl
  answers w r t := by
    have hx := w.ending_answer t.now
    simp only [world]
    split
    · rename_i x hend
      rw [hend] at hx
      exact .inl ⟨hx, trivial⟩
    · rename_i moment x hend
      rw [hend] at hx
      split
      · exact .inl ⟨hx, trivial⟩
      · rename_i hturn
        split
        · exact .inr ⟨Wait.tells_interrupted (Bool.eq_false_iff.mpr hturn), rfl⟩
        · exact .inl ⟨hx, trivial⟩

/-! ## Processes that heed cancellation -/

/-- Notes whether the process has learned that its run was cancelled. From then on it must not have
any effect. -/
def Watch.heeding : Watch Bool where
  allows noticed c := noticed = true → c.isEffect = false
  answered noticed c x := noticed || c.tells x
  awaited noticed w x := noticed || w.tells x

theorem Watch.heeding_maintains : heeding.Maintains (· = false) where
  lenient g hg := by
    subst hg
    exact
      { own := fun _ _ h => nomatch h
        unmoved := fun _ _ _ hx => hx
        cancelled := .inr rfl
        waits := fun _ _ => trivial
        lasting := fun _ _ hx => hx
        interrupted := fun _ _ _ => .inr rfl
        fails := fun _ _ => .inl rfl }
  polls g _ hg := by
    subst hg
    exact ⟨fun h => (nomatch h), rfl⟩
  logs g _ := ⟨fun _ => rfl, fun _ => Bool.or_false g⟩
  commands g _ _ a _ _ := by
    cases a with
    | command => exact fun _ _ _ => trivial
    | _ => exact trivial

theorem Watch.heeding_ignoresLifecycle : heeding.IgnoresLifecycle := by
  intro g c hc
  cases c with
  | launch | start | announce | enter | blame => exact ⟨fun _ => rfl, fun _ => Bool.or_false g⟩
  | _ => exact hc.elim

namespace Process

/-- The process heeds cancellation: once it has learned of it, it has no effect, and `C` holds of
what it gives. -/
def Heeds (C : α → Prop) (noticed : Bool) (p : Process α) : Prop :=
  p.Keeps .heeding (fun a noticed => noticed = true → C a) noticed

variable {C : α → Prop}

/-- A process that has learned of the cancellation has no effect in any world. -/
theorem Heeds.noticed {p : Process α} (h : p.Heeds C true) (world : World τ) (r : Run) (t : τ) :
    p.effects world r t = [] ∧ C (p.run world r t).1 := by
  induction p generalizing r t with
  | done a => exact ⟨rfl, h rfl⟩
  | access c next ih =>
    obtain ⟨hrest, hC⟩ := ih (c.perform (world.meanwhile r t).1).1 (h.2 _)
      (c.perform (world.meanwhile r t).1).2 (world.meanwhile r t).2
    refine ⟨?_, hC⟩
    rw [effects_access, hrest, h.1 rfl]
    rfl
  | wait w next ih => exact ih _ (h.2 _) _ _

/-- A process that may be cancelled has the effects it has when it is left alone, up to some point.
Unless it ends as one that was cancelled, there is no difference but the mark. -/
theorem run_cut {world : World τ} {answer : (w : Wait) → σ → w.Answer × σ} {view : τ → σ}
    (hw : world.MayCancel answer view) {p : Process α} (hp : p.Heeds C false) {r : Run}
    (hr : r.cancelled = false) (b : Bool) (t : τ) :
    p.effects world (r.marked b) t <+: p.effects (.answering answer) r (view t) ∧
      (C (p.run world (r.marked b) t).1 ∨
        ∃ b' t', p.run world (r.marked b) t =
            ((p.run (.answering answer) r (view t)).1,
              (p.run (.answering answer) r (view t)).2.1.marked b', t') ∧
          view t' = (p.run (.answering answer) r (view t)).2.2) := by
  -- By induction on the process, for every run and moment. What is kept is that both runs are equal
  -- but for the mark, and that the process has not seen the mark yet.
  induction p generalizing r b t with
  | done a => exact ⟨List.prefix_rfl, .inr ⟨b, t, rfl, rfl⟩⟩
  | access c next ih =>
    obtain ⟨b', hb'⟩ := hw.onlyCancels.meanwhile_marked r b t
    rw [effects_access, effects_access, run_access, run_access, hb']
    cases hx : c.tells (c.perform (r.marked b')).1 with
    -- The access tells of the cancellation: from here on there are no effects.
    | true =>
      have hnext := hp.2 (c.perform (r.marked b')).1
      simp only [Watch.heeding, hx, Bool.false_or] at hnext
      obtain ⟨hnone, hC⟩ := Heeds.noticed hnext world (c.perform (r.marked b')).2
        (world.meanwhile (r.marked b) t).2
      rw [hnone, Run.Access.isEffect_of_tells hx]
      exact ⟨List.nil_prefix, .inl hC⟩
    | false =>
      -- It tells nothing of it, so both answers are the same and both runs go on alike.
      have hnext := hp.2 (c.perform (r.marked b')).1
      simp only [Watch.heeding, hx, Bool.false_or] at hnext
      rw [Run.answer_marked hr hx] at hnext ⊢
      rw [Run.perform_marked]
      obtain ⟨hcut, hend⟩ := ih _ hnext ((Run.cancelled_perform c r).trans hr) b'
        (world.meanwhile (r.marked b) t).2
      rw [hw.unseen] at hcut hend
      exact ⟨(List.prefix_append_right_inj _).mpr hcut, hend⟩
  | wait w next ih =>
    obtain ⟨b', hb'⟩ := hw.onlyCancels.await_marked w r b t
    rw [effects_wait, effects_wait, run_wait, run_wait, hb']
    have hnext := hp.2 (world.await w (r.marked b) t).1
    cases hx : w.tells (world.await w (r.marked b) t).1 with
    | true =>
      -- The wait was interrupted.
      simp only [Watch.heeding, hx, Bool.false_or] at hnext
      obtain ⟨hnone, hC⟩ := Heeds.noticed hnext world (r.marked b')
        (world.await w (r.marked b) t).2.2
      rw [hnone]
      exact ⟨List.nil_prefix, .inl hC⟩
    | false =>
      -- A wait that was not gives what it gives when the run is left alone.
      simp only [Watch.heeding, hx, Bool.false_or] at hnext
      have hanswer := hw.answers w (r.marked b) t
      rw [hx] at hanswer
      obtain ⟨hsame, hview⟩ := hanswer.resolve_right fun h => nomatch h.1
      rw [hsame] at hnext ⊢
      obtain ⟨hcut, hend⟩ := ih _ hnext hr b' (world.await w (r.marked b) t).2.2
      rw [hview] at hcut hend
      exact ⟨hcut, hend⟩

end Process

/-! ## Scripts -/

namespace Engine

variable {e : Engine} {world : World τ} {answer : (w : Wait) → σ → w.Answer × σ} {view : τ → σ}
  {r : Run}

/-- The result is the error of a run that was cancelled. -/
def EndsCancelled (result : Except Outcome String) : Prop :=
  ∃ o, result = .error o ∧ o.IsCancelled

theorem execute_heeds (e : Engine) (name : String) (script : Script) :
    (e.execute name script).Heeds EndsCancelled false := by
  refine (execute_keeps_invariant Watch.heeding_maintains Watch.heeding_ignoresLifecycle e name
    script rfl).mono fun result noticed h hn => ?_
  subst hn
  cases result with
  | ok message => cases h
  | error o => exact ⟨o, rfl, h.resolve_left fun h => nomatch h⟩

/-- A process whose next access finds out that the run was cancelled. -/
theorem run_poll_cancelled {p : Process α} {point : Run.Checkpoint} {next : Bool → Process α}
    {a : α} (hw : world.OnlyCancels) (hr : r.cancelled = true) (t : τ)
    (hp : p = .access (.poll point) next) (ha : next true = .done a) :
    ∃ t', p.run world r t = (a, r, t') ∧ p.accesses world r t = [.poll point] := by
  subst hp
  refine ⟨(world.meanwhile r t).2, ?_⟩
  rw [Process.run_access, Process.accesses_access, hw.meanwhile_cancelled hr]
  simp only [Run.Access.perform, hr, ha]
  exact ⟨rfl, rfl⟩

/-- In a cancelled run a step ends where it begins, however it is made. -/
theorem run_dispatch_cancelled (hw : world.OnlyCancels) (hr : r.cancelled = true) (t : τ)
    (s : Step) :
    ∃ t', (e.dispatch s).run world r t = (e.failure s.action? .cancelled, r, t') ∧
      (e.dispatch s).accesses world r t = [.poll (.step s)] :=
  run_poll_cancelled hw hr t rfl rfl

/-- In a cancelled run a line ends where it begins. -/
theorem run_statementsFrom_cancelled (hw : world.OnlyCancels) (hr : r.cancelled = true)
    (t : τ) (config : Config) (done index : Nat) (line : String) (rest : List (Nat × String)) :
    ∃ t', (Snippet.statementsFrom config done ((index, line) :: rest)).run world r t =
        (.error (Snippet.failure config index .cancelled), r, t') ∧
      (Snippet.statementsFrom config done ((index, line) :: rest)).accesses world r t =
        [.poll .line] := by
  obtain ⟨next, hp, hnext⟩ : ∃ next : Unit → Process (Except Outcome String),
      Snippet.statementsFrom config done ((index, line) :: rest) = .wait .turn next ∧
        ∃ after, next () = .access (.poll .line) after ∧
          after true = .done (.error (Snippet.failure config index .cancelled)) :=
    ⟨_, rfl, _, rfl, rfl⟩
  obtain ⟨after, hpoll, hafter⟩ := hnext
  rw [hp, Process.run_wait, Process.accesses_wait, hw.await_cancelled hr]
  exact run_poll_cancelled hw hr _ hpoll hafter

/-- Cancelling cuts a script short and changes nothing else. Whenever the run is cancelled, the
script has the effects it has when it is left alone, up to some point; no step or line that comes
after the cancellation is carried out; and a script that does not end cancelled gives what it gives
when it is left alone, and leaves the run as it leaves it then, but for the mark. -/
theorem execute_cut_short (e : Engine) (name : String) (script : Script)
    (hw : world.MayCancel answer view) (hr : r.cancelled = false) (t : τ) :
    ((e.execute name script).effects world r t <+:
      (e.execute name script).effects (.answering answer) r (view t)) ∧
    (∀ (r : Run) (t : τ), r.cancelled = true →
      (∀ s, ∃ t', (e.dispatch s).run world r t = (e.failure s.action? .cancelled, r, t') ∧
        (e.dispatch s).accesses world r t = [.poll (.step s)]) ∧
      ∀ done index line rest, ∃ t',
        (Snippet.statementsFrom e.config done ((index, line) :: rest)).run world r t =
          (.error (Snippet.failure e.config index .cancelled), r, t') ∧
        (Snippet.statementsFrom e.config done ((index, line) :: rest)).accesses world r t =
          [.poll .line]) ∧
    (¬EndsCancelled ((e.execute name script).run world r t).1 →
      ∃ b t', (e.execute name script).run world r t =
          (((e.execute name script).run (.answering answer) r (view t)).1,
            ((e.execute name script).run (.answering answer) r (view t)).2.1.marked b, t') ∧
        view t' = ((e.execute name script).run (.answering answer) r (view t)).2.2) := by
  have h := Process.run_cut hw (execute_heeds e name script) hr false t
  rw [Run.marked_eq hr] at h
  obtain ⟨hcut, hend⟩ := h
  refine ⟨hcut, fun r t hr => ⟨fun s => run_dispatch_cancelled hw.onlyCancels hr t s, ?_⟩,
    fun hc => hend.resolve_left hc⟩
  exact fun done index line rest => run_statementsFrom_cancelled hw.onlyCancels hr t _ done index line rest

/-- A script that prints twice, cancelled before and after its second step looks. -/
theorem execute_cut_short_midway :
    let prints (n : Int) : Step := ⟨[("action", .str "print_msg"), ("message", .int n)]⟩
    let e : Engine := {}
    let p := e.execute "midway" (.steps [prints 1, prints 2])
    let r := Run.create "midway" {} e.config
    let world := World.cancelling Wait.quiet
    let whole := p.run (.answering Wait.quiet) r ()
    world.MayCancel Wait.quiet Prod.snd ∧ r.cancelled = false ∧
      p.effects world r (9, ()) = [.print "1"] ∧
      p.effects world r (9, ()) <+: p.effects (.answering Wait.quiet) r () ∧
      ¬EndsCancelled (p.run world r (10, ())).1 ∧
      ∃ b t', p.run world r (10, ()) = (whole.1, whole.2.1.marked b, t') := by
  intro prints e p r world whole
  have hw := World.cancelling_mayCancel Wait.quiet
  obtain ⟨hcut, -, -⟩ := execute_cut_short e "midway" (.steps [prints 1, prints 2]) hw
    (show r.cancelled = false from rfl) (9, ())
  obtain ⟨-, -, hsame⟩ := execute_cut_short e "midway" (.steps [prints 1, prints 2]) hw
    (show r.cancelled = false from rfl) (10, ())
  have hend : ¬EndsCancelled (p.run world r (10, ())).1 := fun ⟨_, h, _⟩ => nomatch h
  obtain ⟨b, t', h, -⟩ := hsame hend
  exact ⟨hw, rfl, rfl, hcut, hend, b, t', h⟩

end Engine

end Stepwise
