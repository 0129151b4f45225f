import Mathlib.Data.List.Forall2
import Stepwise.Proofs.Cancellation

/-!
# Processes that track each other

Two processes track each other if they do the same as long as they are answered alike: the same
accesses and waits, but for the outcomes that they note, which are related by `O`, and in the end
values that are related by `R`. The first of them may give up before that: then it has no more
effects, whatever it is answered, and `D` holds of what it gives.

* `Process.Tracks`, `Attempt.Tracks`: the relation, with a rule for each way to build a process.
* `World.Simulates`: worlds in which such processes are answered alike.
* `Process.Tracks.run`, `Process.Tracks.effects`: runs of processes that track each other.
-/

namespace Stepwise

variable {α α' β β' σ τ : Type}

/-- Allows only what has no effect. -/
def Watch.silent : Watch Unit where
  allows _ c := c.isEffect = false

namespace Process

/-- Whatever it is answered, the process has no effects, and `D` holds of what it gives. -/
def Doomed (D : α → Prop) (p : Process α) : Prop := p.Keeps .silent (fun a _ => D a) ()

namespace Doomed

variable {D : α → Prop} {D' : β → Prop}

theorem bind {p : Process α} {f : α → Process β} (h : p.Doomed D)
    (hf : ∀ a, D a → (f a).Doomed D') : (p.bind f).Doomed D' :=
  Keeps.bind (h.mono fun a _ ha => hf a ha)

theorem run {p : Process α} (h : p.Doomed D) (world : World σ) (r : Run) (s : σ) :
    p.effects world r s = [] ∧ D (p.run world r s).1 := by
  induction p generalizing r s with
  | done a => exact ⟨rfl, h⟩
  | access c next ih =>
    obtain ⟨hrest, hD⟩ := ih (c.perform (world.meanwhile r s).1).1 (h.2 _)
      (c.perform (world.meanwhile r s).1).2 (world.meanwhile r s).2
    refine ⟨?_, hD⟩
    rw [effects_access, hrest, if_neg (Bool.eq_false_iff.mp h.1)]
    rfl
  | wait w next ih => exact ih _ (h.2 _) _ _

end Doomed

/-- The first process does what the second one does, but may be doomed. -/
inductive Tracks (O : Outcome → Outcome → Prop) (D : α → Prop) (R : α → α' → Prop) :
    Process α → Process α' → Prop
  | done {a : α} {a' : α'} : R a a' → Tracks O D R (.done a) (.done a')
  | access {c : Run.Access} {next : c.Answer → Process α} {next' : c.Answer → Process α'} :
      (∀ x, Tracks O D R (next x) (next' x)) → Tracks O D R (.access c next) (.access c next')
  | log {action : String} {o o' : Outcome} {next : Unit → Process α} {next' : Unit → Process α'} :
      O o o' → Tracks O D R (next ()) (next' ()) →
      Tracks O D R (.access (.log ⟨action, o⟩) next) (.access (.log ⟨action, o'⟩) next')
  | blame {o o' : Outcome} {next : Unit → Process α} {next' : Unit → Process α'} :
      O o o' → Tracks O D R (next ()) (next' ()) →
      Tracks O D R (.access (.blame o) next) (.access (.blame o') next')
  | wait {w : Wait} {next : w.Answer → Process α} {next' : w.Answer → Process α'} :
      (∀ x, Tracks O D R (next x) (next' x)) → Tracks O D R (.wait w next) (.wait w next')
  | doomed {p : Process α} {p' : Process α'} : p.Doomed D → Tracks O D R p p'

namespace Tracks

variable {O : Outcome → Outcome → Prop} {D : α → Prop} {R : α → α' → Prop} {E : β → Prop}
  {S : β → β' → Prop}

/-- A process tracks itself. -/
theorem refl {R : α → α → Prop} (hR : ∀ a, R a a) (p : Process α) : p.Tracks O D R p := by
  induction p with
  | done a => exact .done (hR a)
  | access c next ih => exact .access ih
  | wait w next ih => exact .wait ih

theorem bind {p : Process α} {p' : Process α'} {f : α → Process β} {f' : α' → Process β'}
    (h : p.Tracks O D R p') (hf : ∀ a a', R a a' → (f a).Tracks O E S (f' a'))
    (hD : ∀ a, D a → (f a).Doomed E) : (p.bind f).Tracks O E S (p'.bind f') := by
  induction h with
  | done ha => exact hf _ _ ha
  | access _ ih => exact .access ih
  | log ho _ ih => exact .log ho ih
  | blame ho _ ih => exact .blame ho ih
  | wait _ ih => exact .wait ih
  | doomed hp => exact .doomed (hp.bind hD)

/-- Both begin with the same access. -/
theorem ofAccess_bind {c : Run.Access} {f : c.Answer → Process α} {f' : c.Answer → Process α'}
    (h : ∀ x, (f x).Tracks O D R (f' x)) :
    ((ofAccess c).bind f).Tracks O D R ((ofAccess c).bind f') := .access h

end Tracks

end Process

/-! ## Runs -/

/-- Accesses that are the same but for related outcomes. -/
inductive Run.Access.Alike (O : Outcome → Outcome → Prop) : Run.Access → Run.Access → Prop
  | refl (c : Run.Access) : Alike O c c
  | log {action : String} {o o' : Outcome} : O o o' → Alike O (.log ⟨action, o⟩) (.log ⟨action, o'⟩)
  | blame {o o' : Outcome} : O o o' → Alike O (.blame o) (.blame o')

/-- What is related by `S` stays so, and is answered alike. -/
structure World.Simulates (O : Outcome → Outcome → Prop) (S : Run → σ → Run → τ → Prop)
    (world : World σ) (world' : World τ) : Prop where
  meanwhile : ∀ {r s r' s'}, S r s r' s' →
    S (world.meanwhile r s).1 (world.meanwhile r s).2 (world'.meanwhile r' s').1
      (world'.meanwhile r' s').2
  await : ∀ {r s r' s'} (w : Wait), S r s r' s' →
    (world.await w r s).1 = (world'.await w r' s').1 ∧
    S (world.await w r s).2.1 (world.await w r s).2.2 (world'.await w r' s').2.1
      (world'.await w r' s').2.2
  perform : ∀ {r s r' s'} (c : Run.Access), S r s r' s' →
    (c.perform r).1 = (c.perform r').1 ∧ S (c.perform r).2 s (c.perform r').2 s'
  log : ∀ {r s r' s' o o'} (action : String), O o o' → S r s r' s' →
    S (r.log ⟨action, o⟩) s (r'.log ⟨action, o'⟩) s'
  blame : ∀ {r s r' s' o o'}, O o o' → S r s r' s' →
    S { r with error := some o } s { r' with error := some o' } s'

/-- A world answers a run like itself. -/
theorem World.simulates_self (world : World σ) :
    world.Simulates Eq (fun r s r' s' => r = r' ∧ s = s') world where
  meanwhile := by
    rintro r s _ _ ⟨rfl, rfl⟩
    exact ⟨rfl, rfl⟩
  await w := by
    rintro ⟨rfl, rfl⟩
    exact ⟨rfl, rfl, rfl⟩
  perform c := by
    rintro ⟨rfl, rfl⟩
    exact ⟨rfl, rfl, rfl⟩
  log action := by
    rintro rfl ⟨rfl, rfl⟩
    exact ⟨rfl, rfl⟩
  blame := by
    rintro r s _ _ o _ rfl ⟨rfl, rfl⟩
    exact ⟨rfl, rfl⟩

namespace Process

/-- The accesses of a process in a world, each with the run as it is then. -/
def moments (world : World σ) : Process α → Run → σ → List (Run.Access × Run)
  | done _, _, _ => []
  | access c next, r, s =>
    let (r, s) := world.meanwhile r s
    let (x, r) := c.perform r
    (c, r) :: moments world (next x) r s
  | wait w next, r, s =>
    let (x, r, s) := world.await w r s
    moments world (next x) r s

theorem moments_access (world : World σ) (c : Run.Access) (next : c.Answer → Process α) (r : Run)
    (s : σ) :
    (access c next).moments world r s =
      (c, (c.perform (world.meanwhile r s).1).2) ::
        (next (c.perform (world.meanwhile r s).1).1).moments world
          (c.perform (world.meanwhile r s).1).2 (world.meanwhile r s).2 := rfl

theorem moments_wait (world : World σ) (w : Wait) (next : w.Answer → Process α) (r : Run) (s : σ) :
    (wait w next).moments world r s =
      (next (world.await w r s).1).moments world (world.await w r s).2.1
        (world.await w r s).2.2 := rfl

theorem accesses_eq_moments (world : World σ) (p : Process α) (r : Run) (s : σ) :
    p.accesses world r s = (p.moments world r s).map Prod.fst := by
  induction p generalizing r s with
  | done a => rfl
  | access c next ih => exact congrArg (List.cons c) (ih _ _ _)
  | wait w next ih => exact ih _ _ _

/-- Processes that track each other go through the same in worlds that answer them alike, unless the
first one is doomed. -/
theorem Tracks.run {O : Outcome → Outcome → Prop} {D : α → Prop} {R : α → α' → Prop}
    {S : Run → σ → Run → τ → Prop} {world : World σ} {world' : World τ}
    (hw : world.Simulates O S world') {p : Process α} {p' : Process α'} (h : p.Tracks O D R p')
    {r r' : Run} {s : σ} {s' : τ} (hS : S r s r' s') :
    D (p.run world r s).1 ∨
      R (p.run world r s).1 (p'.run world' r' s').1 ∧
      S (p.run world r s).2.1 (p.run world r s).2.2 (p'.run world' r' s').2.1
        (p'.run world' r' s').2.2 ∧
      List.Forall₂ (fun m m' => m.1.Alike O m'.1 ∧ ∃ s s', S m.2 s m'.2 s')
        (p.moments world r s) (p'.moments world' r' s') := by
  induction h generalizing r r' s s' with
  | done ha => exact .inr ⟨ha, hS, .nil⟩
  | @access c next next' _ ih =>
    obtain ⟨hx, hS⟩ := hw.perform c (hw.meanwhile hS)
    rw [run_access, run_access, moments_access, moments_access, ← hx]
    exact (ih _ hS).imp_right fun ⟨hR, hS', hms⟩ => ⟨hR, hS', .cons ⟨.refl c, _, _, hS⟩ hms⟩
  | @log action o o' next next' ho _ ih =>
    have hS := hw.log action ho (hw.meanwhile hS)
    exact (ih hS).imp_right fun ⟨hR, hS', hms⟩ => ⟨hR, hS', .cons ⟨.log ho, _, _, hS⟩ hms⟩
  | @blame o o' next next' ho _ ih =>
    have hS := hw.blame ho (hw.meanwhile hS)
    exact (ih hS).imp_right fun ⟨hR, hS', hms⟩ => ⟨hR, hS', .cons ⟨.blame ho, _, _, hS⟩ hms⟩
  | @wait w next next' _ ih =>
    obtain ⟨hx, hS⟩ := hw.await w hS
    rw [run_wait, run_wait, moments_wait, moments_wait, ← hx]
    exact ih _ hS
  | doomed hp => exact .inl (hp.run world r s).2

/-- The effects of the first process are the beginning of those of the second. -/
theorem Tracks.effects {O : Outcome → Outcome → Prop} {D : α → Prop} {R : α → α' → Prop}
    {S : Run → σ → Run → τ → Prop} {world : World σ} {world' : World τ}
    (hw : world.Simulates O S world') {p : Process α} {p' : Process α'} (h : p.Tracks O D R p')
    {r r' : Run} {s : σ} {s' : τ} (hS : S r s r' s') :
    p.effects world r s <+: p'.effects world' r' s' := by
  induction h generalizing r r' s s' with
  | done => exact List.prefix_rfl
  | @access c next next' _ ih =>
    obtain ⟨hx, hS⟩ := hw.perform c (hw.meanwhile hS)
    rw [effects_access, effects_access, ← hx]
    exact (List.prefix_append_right_inj _).mpr (ih _ hS)
  | log ho _ ih => exact ih (hw.log _ ho (hw.meanwhile hS))
  | blame ho _ ih => exact ih (hw.blame ho (hw.meanwhile hS))
  | @wait w next next' _ ih =>
    obtain ⟨hx, hS⟩ := hw.await w hS
    rw [effects_wait, effects_wait, ← hx]
    exact ih _ hS
  | doomed hp =>
    rw [(hp.run world r s).1]
    exact List.nil_prefix

end Process

/-! ## Attempts -/

namespace Attempt

/-- Values that are related by `R`, or the same cause of failure. -/
inductive Agree (R : α → α' → Prop) : Except Cause α → Except Cause α' → Prop
  | ok {a : α} {a' : α'} : R a a' → Agree R (.ok a) (.ok a')
  | error (c : Cause) : Agree R (.error c) (.error c)

/-- A value of which `D` holds, or a failure of a kind that is `fatal`. -/
def Lost (fatal : Category → Prop) (D : α → Prop) : Except Cause α → Prop
  | .ok a => D a
  | .error c => fatal c.category

/-- The first attempt does what the second one does, but may be doomed. -/
def Tracks (O : Outcome → Outcome → Prop) (fatal : Category → Prop) (D : α → Prop)
    (R : α → α' → Prop) (x : Attempt α) (x' : Attempt α') : Prop :=
  x.run.Tracks O (Lost fatal D) (Agree R) x'.run

namespace Tracks

variable {O : Outcome → Outcome → Prop} {fatal : Category → Prop} {D : α → Prop}
  {R : α → α' → Prop} {E : β → Prop} {S : β → β' → Prop}

theorem refl {R : α → α → Prop} (hR : ∀ a, R a a) (x : Attempt α) : Tracks O fatal D R x x :=
  Process.Tracks.refl (fun
    | .ok a => .ok (hR a)
    | .error c => .error c) x.run

theorem pure {a : α} {a' : α'} (h : R a a') :
    Tracks O fatal D R (Pure.pure a : Attempt α) (Pure.pure a') := .done (.ok h)

theorem bind {x : Attempt α} {x' : Attempt α'} {f : α → Attempt β} {f' : α' → Attempt β'}
    (h : Tracks O fatal D R x x') (hf : ∀ a a', R a a' → Tracks O fatal E S (f a) (f' a'))
    (hD : ∀ a, D a → (f a).run.Doomed (Lost fatal E)) :
    Tracks O fatal E S (x >>= f) (x' >>= f') := by
  refine Process.Tracks.bind h (fun a a' ha => ?_) fun a ha => ?_
  · cases ha with
    | ok ha => exact hf _ _ ha
    | error c => exact .done (.error c)
  · cases a with
    | ok a => exact hD a ha
    | error c => exact ha

/-- Both begin with the same attempt. -/
theorem refl_bind (x : Attempt α) {f : α → Attempt β} {f' : α → Attempt β'}
    (hf : ∀ a, Tracks O fatal E S (f a) (f' a)) : Tracks O fatal E S (x >>= f) (x >>= f') :=
  bind (R := Eq) (D := fun _ => False) (refl (fun _ => rfl) x) (fun a _ ha => ha ▸ hf a)
    fun _ h => h.elim

/-- Both fail before they come to that in which they differ. -/
theorem throw_bind (c : Cause) {f : α → Attempt β} {f' : α → Attempt β'} :
    Tracks O fatal E S (throw c >>= f) (throw c >>= f') := .done (.error c)

theorem settled {x x' : Except Cause α} (h : Except.Narrows (fun c => fatal c.category) x x') :
    Tracks O fatal D Eq (settled x) (Attempt.settled x') := by
  rcases h with rfl | ⟨c, rfl, hc⟩
  · exact refl (fun _ => rfl) _
  · exact .doomed hc

/-- What is known of settled results holds of what depends on them. -/
theorem settled_bind {x x' : Except Cause α} {f : α → Attempt β} {f' : α → Attempt β'}
    (h : Except.Narrows (fun c => fatal c.category) x x')
    (hf : ∀ a, Tracks O fatal E S (f a) (f' a)) :
    Tracks O fatal E S (Attempt.settled x >>= f) (Attempt.settled x' >>= f') :=
  bind (D := fun _ => False) (settled h) (fun a _ ha => ha ▸ hf a) fun _ h => h.elim

theorem lift {p : Process α} {p' : Process α'} (h : p.Tracks O D R p') :
    Tracks O fatal D R (ExceptT.lift p) (ExceptT.lift p') :=
  Process.Tracks.bind h (fun _ _ ha => .done (.ok ha)) fun _ ha => ha

end Tracks

end Attempt

end Stepwise
