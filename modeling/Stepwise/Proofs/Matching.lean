import Stepwise.Proofs.Tracking

/-!
# Processes that do the same

Two processes match if, in every world, they do the same to every run and to the world, and give
values that are related. They need not make the same accesses: it makes no difference, say, at which
point a process looks whether it has been cancelled.

* `Process.Matches`, `Attempt.Matches`: the relation, with a rule for each way to build a process.
* `Process.Matches.run_eq`: processes that give the same are carried out alike.
-/

namespace Stepwise

variable {α β γ δ τ : Type}

namespace Process

/-- In every world the processes do the same to the run, and give related values. -/
structure Matches (R : α → β → Prop) (p : Process α) (q : Process β) : Prop where
  result : ∀ {τ : Type} (world : World τ) (r : Run) (t : τ),
    R (p.run world r t).1 (q.run world r t).1
  rest : ∀ {τ : Type} (world : World τ) (r : Run) (t : τ),
    (p.run world r t).2 = (q.run world r t).2

namespace Matches

variable {R : α → β → Prop} {S : γ → δ → Prop}

theorem refl {R : α → α → Prop} (hR : ∀ a, R a a) (p : Process α) : p.Matches R p :=
  ⟨fun _ _ _ => hR _, fun _ _ _ => rfl⟩

theorem done {a : α} {b : β} (h : R a b) : (Process.done a).Matches R (Process.done b) :=
  ⟨fun _ _ _ => h, fun _ _ _ => rfl⟩

theorem bind {p : Process α} {q : Process β} {f : α → Process γ} {g : β → Process δ}
    (h : p.Matches R q) (hf : ∀ a b, R a b → (f a).Matches S (g b)) :
    (p.bind f).Matches S (q.bind g) := by
  have hnext {τ : Type} (world : World τ) (r : Run) (t : τ) :
      ∃ a b r' t', R a b ∧ p.run world r t = (a, r', t') ∧ q.run world r t = (b, r', t') :=
    ⟨_, _, _, _, h.result world r t, rfl, Prod.ext rfl (h.rest world r t).symm⟩
  constructor
  · intro τ world r t
    obtain ⟨a, b, r', t', hR, hp, hq⟩ := hnext world r t
    rw [run_bind, run_bind, hp, hq]
    exact (hf a b hR).result world r' t'
  · intro τ world r t
    obtain ⟨a, b, r', t', hR, hp, hq⟩ := hnext world r t
    rw [run_bind, run_bind, hp, hq]
    exact (hf a b hR).rest world r' t'

/-- Processes that match and give the same are carried out alike. -/
theorem run_eq {p q : Process α} (h : p.Matches Eq q) (world : World τ) (r : Run) (t : τ) :
    p.run world r t = q.run world r t := Prod.ext (h.result world r t) (h.rest world r t)

/-- Both begin with the same process. -/
theorem refl_bind (p : Process α) {f : α → Process γ} {g : α → Process δ}
    (hf : ∀ a, (f a).Matches S (g a)) : (p.bind f).Matches S (p.bind g) :=
  bind (R := Eq) (refl (fun _ => rfl) p) fun a _ h => h ▸ hf a

end Matches

end Process

namespace Attempt

/-- In every world the attempts do the same to the run, and come to the same. -/
def Matches (R : α → β → Prop) (x : Attempt α) (y : Attempt β) : Prop :=
  x.run.Matches (Agree R) y.run

namespace Matches

variable {R : α → β → Prop} {S : γ → δ → Prop}

theorem refl {R : α → α → Prop} (hR : ∀ a, R a a) (x : Attempt α) : Matches R x x :=
  Process.Matches.refl (fun
    | .ok a => .ok (hR a)
    | .error c => .error c) x.run

theorem settled {x : Except Cause α} {y : Except Cause β} (h : Agree R x y) :
    Matches R (settled x) (Attempt.settled y) := Process.Matches.done h

theorem bind {x : Attempt α} {y : Attempt β} {f : α → Attempt γ} {g : β → Attempt δ}
    (h : Matches R x y) (hf : ∀ a b, R a b → Matches S (f a) (g b)) :
    Matches S (x >>= f) (y >>= g) := by
  refine Process.Matches.bind h fun a b hab => ?_
  cases hab with
  | ok hab => exact hf _ _ hab
  | error c => exact Process.Matches.done (.error c)

/-- Both begin with the same attempt. -/
theorem refl_bind (x : Attempt α) {f : α → Attempt γ} {g : α → Attempt δ}
    (hf : ∀ a, Matches S (f a) (g a)) : Matches S (x >>= f) (x >>= g) :=
  bind (R := Eq) (refl (fun _ => rfl) x) fun a _ h => h ▸ hf a

theorem lift {p : Process α} {q : Process β} (h : p.Matches R q) :
    Matches R (ExceptT.lift p) (ExceptT.lift q) :=
  Process.Matches.bind h fun _ _ hab => Process.Matches.done (.ok hab)

/-- Both fail before they come to that in which they differ. -/
theorem throw_bind (c : Cause) {f : α → Attempt γ} {g : β → Attempt δ} :
    Matches S (throw c >>= f) (throw c >>= g) := Process.Matches.done (.error c)

/-- It makes no difference where a process looks whether it has been cancelled. -/
theorem poll (point point' : Run.Checkpoint) :
    Matches Eq (access (.poll point)) (access (.poll point')) :=
  ⟨fun _ _ _ => .ok rfl, fun _ _ _ => rfl⟩

end Matches

end Attempt

end Stepwise
