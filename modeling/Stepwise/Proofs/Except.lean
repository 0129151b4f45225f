import Stepwise.Cause

/-!
# Results that may be failures

How a `do` block over `Except` came to its end. `FailsOnly P x` says that if `x` fails at all, then
with a cause that satisfies `P`; `GivesOnly P x` that if `x` gives something, it satisfies `P`.
`Narrows P x y` says that `x` is `y`, unless it fails with a cause that satisfies `P`.
-/

namespace Stepwise.Except

variable {ε α β : Type}

theorem bind_eq_ok {x : Except ε α} {f : α → Except ε β} {b : β} :
    x >>= f = .ok b ↔ ∃ a, x = .ok a ∧ f a = .ok b := by
  cases x with
  | ok a => simp [bind, Except.bind]
  | error c => simp [bind, Except.bind]

theorem bind_eq_error {x : Except ε α} {f : α → Except ε β} {c : ε} :
    x >>= f = .error c ↔ x = .error c ∨ ∃ a, x = .ok a ∧ f a = .error c := by
  cases x with
  | ok a => simp [bind, Except.bind]
  | error d => simp [bind, Except.bind]

theorem map_eq_ok {x : Except ε α} {f : α → β} {b : β} :
    x.map f = .ok b ↔ ∃ a, x = .ok a ∧ f a = b := by
  cases x with
  | ok a => simp [Except.map]
  | error c => simp [Except.map]

theorem map_eq_error {x : Except ε α} {f : α → β} {c : ε} : x.map f = .error c ↔ x = .error c := by
  cases x with
  | ok a => simp [Except.map]
  | error d => simp [Except.map]

theorem map_map {γ : Type} (f : α → β) (g : β → γ) (x : Except ε α) :
    (x.map f).map g = x.map (g ∘ f) := by
  cases x with
  | ok a => rfl
  | error c => rfl

/-- No failure has a cause outside `P`. -/
def FailsOnly (P : ε → Prop) (x : Except ε α) : Prop := ∀ c, x = .error c → P c

namespace FailsOnly

variable {P P' : ε → Prop} {x : Except ε α}

theorem ok (a : α) : FailsOnly P (.ok a) := fun _ h => by cases h

theorem pure (a : α) : FailsOnly P (Pure.pure a : Except ε α) := ok a

theorem error {c : ε} (h : P c) : FailsOnly P (.error c : Except ε α) := by
  intro d hd
  cases hd
  exact h

theorem mono (h : FailsOnly P x) (hP : ∀ c, P c → P' c) : FailsOnly P' x :=
  fun c hc => hP c (h c hc)

theorem bind {f : α → Except ε β} (hx : FailsOnly P x)
    (hf : ∀ a, x = .ok a → FailsOnly P (f a)) : FailsOnly P (x >>= f) := by
  intro c hc
  obtain h | ⟨a, ha, h⟩ := bind_eq_error.mp hc
  · exact hx c h
  · exact hf a ha c h

/-- A condition under which there is a failure, and what comes after it. -/
theorem guard {c : Prop} [Decidable c] {x : Except ε Unit} {f : Unit → Except ε β}
    (hx : FailsOnly P x) (hf : FailsOnly P (f ())) :
    FailsOnly P (if c then x >>= f else f ()) := by
  split
  · exact hx.bind fun _ _ => hf
  · exact hf

theorem map {f : α → β} (hx : FailsOnly P x) : FailsOnly P (x.map f) :=
  fun c hc => hx c (map_eq_error.mp hc)

end FailsOnly

/-- Nothing outside `P` is given. -/
def GivesOnly (P : α → Prop) (x : Except ε α) : Prop := ∀ a, x = .ok a → P a

namespace GivesOnly

variable {P : α → Prop} {Q : β → Prop} {x : Except ε α}

theorem pure {a : α} (h : P a) : GivesOnly P (Pure.pure a : Except ε α) := by
  intro b hb
  cases hb
  exact h

theorem error (c : ε) : GivesOnly P (.error c : Except ε α) := fun _ h => by cases h

/-- What comes next need only be right for values that can come up. -/
theorem bind_of {f : α → Except ε β} (hf : ∀ a, x = .ok a → GivesOnly Q (f a)) :
    GivesOnly Q (x >>= f) := by
  intro b hb
  obtain ⟨a, ha, h⟩ := bind_eq_ok.mp hb
  exact hf a ha b h

theorem bind {f : α → Except ε β} (hf : ∀ a, GivesOnly Q (f a)) : GivesOnly Q (x >>= f) :=
  bind_of fun a _ => hf a

theorem guard {c : Prop} [Decidable c] {x : Except ε Unit} {f : Unit → Except ε β}
    (hf : GivesOnly Q (f ())) : GivesOnly Q (if c then x >>= f else f ()) := by
  split
  · exact bind fun _ => hf
  · exact hf

/-- What comes after a check knows that the check went well. -/
theorem check {c : Prop} [Decidable c] {x : Except ε Unit} {f : Unit → Except ε β}
    (hx : ∀ u, x ≠ .ok u) (hf : ¬c → GivesOnly Q (f ())) :
    GivesOnly Q (if c then x >>= f else f ()) := by
  split
  · intro b hb
    obtain ⟨u, hu, -⟩ := bind_eq_ok.mp hb
    exact absurd hu (hx u)
  · next hc => exact hf hc

theorem map {f : α → β} (hf : ∀ a, Q (f a)) : GivesOnly Q (x.map f) := by
  intro b hb
  obtain ⟨a, -, rfl⟩ := map_eq_ok.mp hb
  exact hf a

end GivesOnly

/-- `x` and `y` are the same, unless `x` fails with a cause that satisfies `P`. -/
def Narrows (P : ε → Prop) (x y : Except ε α) : Prop := x = y ∨ ∃ c, x = .error c ∧ P c

namespace Narrows

variable {P : ε → Prop} {x y : Except ε α}

theorem refl (x : Except ε α) : Narrows P x x := .inl rfl

theorem bind {f g : α → Except ε β} (h : Narrows P x y) (hf : ∀ a, Narrows P (f a) (g a)) :
    Narrows P (x >>= f) (y >>= g) := by
  rcases h with rfl | ⟨c, rfl, hc⟩
  · cases x with
    | ok a => exact hf a
    | error c => exact .refl _
  · exact .inr ⟨c, rfl, hc⟩

theorem map {f : α → β} (h : Narrows P x y) : Narrows P (x.map f) (y.map f) := by
  rcases h with rfl | ⟨c, rfl, hc⟩
  · exact .refl _
  · exact .inr ⟨c, rfl, hc⟩

end Narrows

end Stepwise.Except
