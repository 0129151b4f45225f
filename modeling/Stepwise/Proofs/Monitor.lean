import Stepwise.Run.Dispatch

/-!
# Watching processes

A process leaves open what its accesses and waits are answered. A monitor watches the accesses: it
allows some of them, and keeps a note of what it has seen.

`p.Meets m Q g` is partial correctness of the process `p` for every answer: started with the note
`g`, it makes only accesses that `m` allows, and `Q` holds of what it gives and of the note it
leaves. The answers are not restricted, so it speaks of all worlds and of all runs at once.

* `Process.Meets.result`, `Process.Meets.allowed`: what it says of a run in a world.
* `Attempt.Meets`: the same with one end for success and one for failure.
-/

namespace Stepwise

/-- What watches the accesses of a process. -/
structure Monitor (γ : Type) where
  /-- The access may be made when the note stands so. -/
  allows : γ → Run.Access → Prop := fun _ _ => True
  /-- The note after an access. -/
  note : γ → Run.Access → γ := fun g _ => g

/-- An access of this kind is always allowed and leaves no note. -/
def Monitor.Ignores {γ : Type} (m : Monitor γ) (c : Run.Access) : Prop :=
  ∀ g, m.allows g c ∧ m.note g c = g

/-- A world in which nothing else works on the run of a process. -/
def World.answering {σ : Type} (answer : (w : Wait) → σ → w.Answer × σ) : World σ where
  await w r s := ((answer w s).1, r, (answer w s).2)

/-- Sleeps last, and nothing outside can be reached. -/
def Wait.quiet : (w : Wait) → Unit → w.Answer × Unit
  | .sleep _, _ => (true, ())
  | .execute .., _ => (.timedOut, ())
  | .send .., _ => (.interrupted, ())
  | .turn, _ => ((), ())

/-- No access cancels the run. -/
theorem Run.cancelled_perform (c : Run.Access) (r : Run) :
    (c.perform r).2.cancelled = r.cancelled := by
  cases c with
  | enter =>
    show (r.enter _).cancelled = _
    unfold enter
    split
    · rfl
    · rfl
  | log =>
    show (r.log _).cancelled = _
    unfold log
    split
    · rfl
    · rfl
  | _ => rfl

namespace Process

variable {α β γ σ : Type} {m : Monitor γ} {Q : α → γ → Prop} {g : γ}

/-- The accesses a process makes in a world, in their order. -/
def accesses (world : World σ) : Process α → Run → σ → List Run.Access
  | done _, _, _ => []
  | access c next, r, s =>
    let (r, s) := world.meanwhile r s
    let (x, r) := c.perform r
    c :: accesses world (next x) r s
  | wait w next, r, s =>
    let (x, r, s) := world.await w r s
    accesses world (next x) r s

theorem run_access (world : World σ) (c : Run.Access) (next : c.Answer → Process α) (r : Run)
    (s : σ) :
    (access c next).run world r s =
      (next (c.perform (world.meanwhile r s).1).1).run world (c.perform (world.meanwhile r s).1).2
        (world.meanwhile r s).2 := rfl

theorem run_wait (world : World σ) (w : Wait) (next : w.Answer → Process α) (r : Run) (s : σ) :
    (wait w next).run world r s =
      (next (world.await w r s).1).run world (world.await w r s).2.1 (world.await w r s).2.2 := rfl

theorem accesses_access (world : World σ) (c : Run.Access) (next : c.Answer → Process α) (r : Run)
    (s : σ) :
    (access c next).accesses world r s =
      c :: (next (c.perform (world.meanwhile r s).1).1).accesses world
        (c.perform (world.meanwhile r s).1).2 (world.meanwhile r s).2 := rfl

theorem accesses_wait (world : World σ) (w : Wait) (next : w.Answer → Process α) (r : Run)
    (s : σ) :
    (wait w next).accesses world r s =
      (next (world.await w r s).1).accesses world (world.await w r s).2.1
        (world.await w r s).2.2 := rfl

/-- A run that is left alone is not cancelled. -/
theorem cancelled_run (answer : (w : Wait) → σ → w.Answer × σ) (p : Process α) (r : Run) (s : σ) :
    (p.run (.answering answer) r s).2.1.cancelled = r.cancelled := by
  induction p generalizing r s with
  | done a => rfl
  | access c next ih => exact (ih _ _ _).trans (Run.cancelled_perform c r)
  | wait w next ih => exact ih _ _ _

/-- Whatever it is answered, the process makes only accesses that are allowed, and `Q` holds in the
end. -/
def Meets (m : Monitor γ) (Q : α → γ → Prop) (g : γ) : Process α → Prop
  | done a => Q a g
  | access c next => m.allows g c ∧ ∀ x, (next x).Meets m Q (m.note g c)
  | wait _ next => ∀ x, (next x).Meets m Q g

namespace Meets

theorem mono {p : Process α} {R : α → γ → Prop} (h : p.Meets m Q g)
    (hQ : ∀ a g', Q a g' → R a g') : p.Meets m R g := by
  induction p generalizing g with
  | done a => exact hQ a g h
  | access c next ih => exact ⟨h.1, fun x => ih x (h.2 x)⟩
  | wait w next ih => exact fun x => ih x (h x)

/-- A run in a world ends as the process must. -/
theorem result {p : Process α} (h : p.Meets m Q g) (world : World σ) (r : Run) (s : σ) :
    Q (p.run world r s).1 ((p.accesses world r s).foldl m.note g) := by
  induction p generalizing g r s with
  | done a => exact h
  | access c next ih => exact ih _ (h.2 _) _ _
  | wait w next ih => exact ih _ (h _) _ _

/-- Every access in a run is allowed by the note of those before it. -/
theorem allowed {p : Process α} (h : p.Meets m Q g) (world : World σ) (r : Run) (s : σ)
    {before after : List Run.Access} {c : Run.Access}
    (hc : p.accesses world r s = before ++ c :: after) : m.allows (before.foldl m.note g) c := by
  induction p generalizing g r s before with
  | done a => simp [accesses] at hc
  | access d next ih =>
    cases before with
    | nil =>
      obtain ⟨rfl, -⟩ := List.cons.inj hc
      exact h.1
    | cons b before =>
      simp only [accesses, List.cons_append, List.cons.injEq] at hc
      obtain ⟨rfl, hc⟩ := hc
      exact ih _ (h.2 _) _ _ hc
  | wait w next ih => exact ih _ (h _) _ _ hc

/-- Where the note says nothing, the order of the accesses does not count. -/
theorem allowed_of_mem {m : Monitor Unit} {Q : α → Unit → Prop} {p : Process α}
    (h : p.Meets m Q ()) (world : World σ) (r : Run) (s : σ) {c : Run.Access}
    (hc : c ∈ p.accesses world r s) : m.allows () c := by
  obtain ⟨before, after, hc⟩ := List.append_of_mem hc
  exact h.allowed world r s hc

end Meets

end Process

/-! ## Attempts -/

namespace Attempt

variable {α β γ : Type} {m : Monitor γ} {Q : α → γ → Prop} {E : Cause → γ → Prop} {g : γ}

/-- An attempt goes on where it succeeded, and its failure ends everything. -/
theorem run_bind {σ : Type} (world : World σ) (x : Attempt α) (f : α → Attempt β) (r : Run)
    (s : σ) :
    (x >>= f).run.run world r s =
      match x.run.run world r s with
      | (.ok a, r, s) => (f a).run.run world r s
      | (.error c, r, s) => (.error c, r, s) := by
  show (Process.bind x.run _).run world r s = _
  rw [Process.run_bind]
  obtain ⟨result, r', s'⟩ := x.run.run world r s
  cases result with
  | ok a => rfl
  | error c => rfl

theorem run_settled {σ : Type} (world : World σ) (x : Except Cause α) (r : Run) (s : σ) :
    (settled x).run.run world r s = (x, r, s) := rfl

theorem run_access {σ : Type} (answer : (w : Wait) → σ → w.Answer × σ) (c : Run.Access) (r : Run)
    (s : σ) :
    (access c).run.run (.answering answer) r s = (.ok (c.perform r).1, (c.perform r).2, s) := rfl

theorem run_lift {σ : Type} (world : World σ) (p : Process α) (r : Run) (s : σ) :
    (ExceptT.lift p : Attempt α).run.run world r s =
      let (a, r, s) := p.run world r s
      (.ok a, r, s) := by
  show (p.bind fun a => .done (Except.ok a)).run world r s = _
  rw [Process.run_bind]
  rfl

/-- One end for success, and one for failure. -/
def Either {ε : Type} (Q : α → γ → Prop) (E : ε → γ → Prop) : Except ε α → γ → Prop
  | .ok a, g => Q a g
  | .error c, g => E c g

/-- `Process.Meets` of an attempt: `Q` holds of what it gives, and `E` of why it fails. -/
def Meets (m : Monitor γ) (Q : α → γ → Prop) (E : Cause → γ → Prop) (g : γ) (x : Attempt α) :
    Prop :=
  x.run.Meets m (Either Q E) g

theorem Meets.mono {x : Attempt α} {R : α → γ → Prop} {F : Cause → γ → Prop} (h : Meets m Q E g x)
    (hQ : ∀ a g', Q a g' → R a g') (hE : ∀ c g', E c g' → F c g') : Meets m R F g x :=
  Process.Meets.mono h fun
    | .ok a, g', h => hQ a g' h
    | .error c, g', h => hE c g' h

end Attempt

end Stepwise
