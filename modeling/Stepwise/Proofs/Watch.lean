import Stepwise.Proofs.Monitor

/-!
# Watching answers and waits

A watch sees more of a process than a monitor: what an access is answered, what the process waits
for, and what comes of that. `p.Keeps m Q g` is the partial correctness that goes with it, and for a
watch that looks at neither it is `p.Meets`.

What a process has done so far is told by its moves, the accesses and waits with their answers.

* `Process.Path`: what is left of a process after some moves.
* `Process.Keeps.path`, `Process.Keeps.permits`: what `Keeps` says of every process on the way.
* `Attempt.Keeps`: the same with one end for success and one for failure, and a rule for each way
  to build an attempt.
* `Run.Access.tells`, `Wait.tells`: the answers by which a process learns that it was cancelled.
-/

namespace Stepwise

/-- The answer tells that the run has been cancelled. -/
def Run.Access.tells : (c : Run.Access) → c.Answer → Bool
  | .poll _, cancelled => cancelled
  | .launch, _ | .start, _ | .announce _, _ | .enter _, _ | .blame _, _ | .read, _ | .assign .., _
  | .print _, _ | .record _, _ | .log _, _ => false

/-- The wait was cut short because the run has been cancelled. -/
def Wait.tells : (w : Wait) → w.Answer → Bool
  | .sleep _, lasted => !lasted
  | .execute .., .interrupted => true
  | .execute .., _ => false
  | .send .., .interrupted => true
  | .send .., _ => false
  | .turn, _ => false

/-- What a process does at one point, and what it is answered. -/
inductive Move where
  | access (c : Run.Access) (x : c.Answer)
  | wait (w : Wait) (x : w.Answer)

/-- What watches the moves of a process. -/
structure Watch (γ : Type) where
  /-- The access may be made when the note stands so. -/
  allows : γ → Run.Access → Prop := fun _ _ => True
  /-- The wait may be begun when the note stands so. -/
  allowsWait : γ → Wait → Prop := fun _ _ => True
  /-- The note after an access was answered. -/
  answered : γ → (c : Run.Access) → c.Answer → γ := fun g _ _ => g
  /-- The note after a wait is over. -/
  awaited : γ → (w : Wait) → w.Answer → γ := fun g _ _ => g

namespace Watch

variable {γ : Type}

/-- The move may be made when the note stands so. -/
def permits (m : Watch γ) (g : γ) : Move → Prop
  | .access c _ => m.allows g c
  | .wait w _ => m.allowsWait g w

/-- The access is allowed, and leaves no note. -/
def Ignores (m : Watch γ) (g : γ) (c : Run.Access) : Prop :=
  m.allows g c ∧ ∀ x, m.answered g c x = g

/-- The note after a move. -/
def after (m : Watch γ) (g : γ) : Move → γ
  | .access c x => m.answered g c x
  | .wait w x => m.awaited g w x

end Watch

/-- A monitor watches accesses, whatever they are answered. -/
def Monitor.watch {γ : Type} (m : Monitor γ) : Watch γ where
  allows := m.allows
  answered g c _ := m.note g c

namespace Process

variable {α β γ σ : Type} {m : Watch γ} {Q : α → γ → Prop} {g : γ}

/-! ## The moves of a process -/

/-- The first process is the second one after these moves. -/
inductive Path : Process α → List Move → Process α → Prop
  | refl {p : Process α} : Path p [] p
  | access {c : Run.Access} {next : c.Answer → Process α} {x : c.Answer} {moves : List Move}
      {p : Process α} : Path (next x) moves p → Path (.access c next) (.access c x :: moves) p
  | wait {w : Wait} {next : w.Answer → Process α} {x : w.Answer} {moves : List Move}
      {p : Process α} : Path (next x) moves p → Path (.wait w next) (.wait w x :: moves) p

theorem Path.trans {p q r : Process α} {moves moves' : List Move} (h : p.Path moves q)
    (h' : q.Path moves' r) : p.Path (moves ++ moves') r := by
  induction h with
  | refl => exact h'
  | access _ ih => exact .access (ih h')
  | wait _ ih => exact .wait (ih h')

theorem Path.of_done {a : α} {moves : List Move} {q : Process α} (h : (done a).Path moves q) :
    moves = [] ∧ q = done a := by
  cases h
  exact ⟨rfl, rfl⟩

/-- The first of the moves lead to a process from which the others go on. -/
theorem Path.split {p q : Process α} {before after : List Move}
    (h : p.Path (before ++ after) q) : ∃ p', p.Path before p' ∧ p'.Path after q := by
  induction before generalizing p with
  | nil => exact ⟨p, .refl, h⟩
  | cons move before ih =>
    cases h with
    | access h =>
      obtain ⟨p', hp, hq⟩ := ih h
      exact ⟨p', .access hp, hq⟩
    | wait h =>
      obtain ⟨p', hp, hq⟩ := ih h
      exact ⟨p', .wait hp, hq⟩

/-- After some moves the first of two processes is still at work, or has handed over. -/
theorem Path.of_bind {p : Process α} {f : α → Process β} {moves : List Move} {q : Process β}
    (h : (p.bind f).Path moves q) :
    (∃ p', p.Path moves p' ∧ q = p'.bind f) ∨
      ∃ before a after, moves = before ++ after ∧ p.Path before (.done a) ∧ (f a).Path after q := by
  induction p generalizing moves with
  | done a => exact .inr ⟨[], a, moves, rfl, .refl, h⟩
  | access c next ih =>
    cases h with
    | refl => exact .inl ⟨_, .refl, rfl⟩
    | access h =>
      rcases ih _ h with ⟨p', hp, hq⟩ | ⟨before, a, after, rfl, hp, hq⟩
      · exact .inl ⟨p', .access hp, hq⟩
      · exact .inr ⟨_ :: before, a, after, rfl, .access hp, hq⟩
  | wait w next ih =>
    cases h with
    | refl => exact .inl ⟨_, .refl, rfl⟩
    | wait h =>
      rcases ih _ h with ⟨p', hp, hq⟩ | ⟨before, a, after, rfl, hp, hq⟩
      · exact .inl ⟨p', .wait hp, hq⟩
      · exact .inr ⟨_ :: before, a, after, rfl, .wait hp, hq⟩

/-- The moves of a process in a world, in their order. -/
def moves (world : World σ) : Process α → Run → σ → List Move
  | done _, _, _ => []
  | access c next, r, s =>
    let (r, s) := world.meanwhile r s
    let (x, r) := c.perform r
    .access c x :: moves world (next x) r s
  | wait w next, r, s =>
    let (x, r, s) := world.await w r s
    .wait w x :: moves world (next x) r s

theorem path_moves (world : World σ) (p : Process α) (r : Run) (s : σ) :
    p.Path (p.moves world r s) (.done (p.run world r s).1) := by
  induction p generalizing r s with
  | done a => exact .refl
  | access c next ih => exact .access (ih _ _ _)
  | wait w next ih => exact .wait (ih _ _ _)

theorem moves_bind (world : World σ) (p : Process α) (f : α → Process β) (r : Run) (s : σ) :
    (p.bind f).moves world r s = p.moves world r s ++
      (f (p.run world r s).1).moves world (p.run world r s).2.1 (p.run world r s).2.2 := by
  induction p generalizing r s with
  | done a => rfl
  | access c next ih => exact congrArg (List.cons _) (ih _ _ _)
  | wait w next ih => exact congrArg (List.cons _) (ih _ _ _)

/-! ## Processes under a watch -/

/-- Whatever it is answered, the process makes only moves that are allowed, and `Q` holds in the
end. -/
def Keeps (m : Watch γ) (Q : α → γ → Prop) (g : γ) : Process α → Prop
  | done a => Q a g
  | access c next => m.allows g c ∧ ∀ x, (next x).Keeps m Q (m.answered g c x)
  | wait w next => m.allowsWait g w ∧ ∀ x, (next x).Keeps m Q (m.awaited g w x)

theorem meets_iff_keeps {m : Monitor γ} {p : Process α} : p.Meets m Q g ↔ p.Keeps m.watch Q g := by
  induction p generalizing g with
  | done a => exact Iff.rfl
  | access c next ih => exact and_congr_right' (forall_congr' fun x => ih x)
  | wait w next ih =>
    exact (forall_congr' fun x => ih x).trans (iff_of_eq (true_and _)).symm

namespace Keeps

theorem mono {p : Process α} {R : α → γ → Prop} (h : p.Keeps m Q g)
    (hQ : ∀ a g', Q a g' → R a g') : p.Keeps m R g := by
  induction p generalizing g with
  | done a => exact hQ a g h
  | access c next ih => exact ⟨h.1, fun x => ih x (h.2 x)⟩
  | wait w next ih => exact ⟨h.1, fun x => ih x (h.2 x)⟩

theorem bind {p : Process α} {f : α → Process β} {R : β → γ → Prop}
    (h : p.Keeps m (fun a g' => (f a).Keeps m R g') g) : (p.bind f).Keeps m R g := by
  induction p generalizing g with
  | done a => exact h
  | access c next ih => exact ⟨h.1, fun x => ih x (h.2 x)⟩
  | wait w next ih => exact ⟨h.1, fun x => ih x (h.2 x)⟩

theorem ofAccess {c : Run.Access} {Q : c.Answer → γ → Prop} (hc : m.allows g c)
    (hQ : ∀ x, Q x (m.answered g c x)) : (Process.ofAccess c).Keeps m Q g := ⟨hc, hQ⟩

theorem ofAccess_ignored {c : Run.Access} {Q : c.Answer → γ → Prop} (hc : m.Ignores g c)
    (hQ : ∀ x, Q x g) : (Process.ofAccess c).Keeps m Q g :=
  ofAccess hc.1 fun x => by rw [hc.2]; exact hQ x

theorem ofWait {w : Wait} {Q : w.Answer → γ → Prop} (hw : m.allowsWait g w)
    (hQ : ∀ x, Q x (m.awaited g w x)) : (Process.ofWait w).Keeps m Q g := ⟨hw, hQ⟩

/-- What is left of the process after some moves is right as well. -/
theorem path {p q : Process α} {moves : List Move} (h : p.Keeps m Q g) (hp : p.Path moves q) :
    q.Keeps m Q (moves.foldl m.after g) := by
  induction hp generalizing g with
  | refl => exact h
  | access _ ih => exact ih (h.2 _)
  | wait _ ih => exact ih (h.2 _)

/-- Every move on the way is allowed by the note of those before it. -/
theorem permits {p q : Process α} {before after : List Move} {move : Move} (h : p.Keeps m Q g)
    (hp : p.Path (before ++ move :: after) q) : m.permits (before.foldl m.after g) move := by
  generalize hm : before ++ move :: after = moves at hp
  -- By induction on the path; the move that is asked about is the next one, or lies behind it.
  induction hp generalizing g before with
  | refl => simp at hm
  | access _ ih =>
    cases before with
    | nil =>
      obtain ⟨rfl, -⟩ := List.cons.inj hm
      exact h.1
    | cons b before =>
      obtain ⟨rfl, hrest⟩ := List.cons.inj hm
      have hmove := ih (h.2 _) hrest
      exact hmove
  | wait _ ih =>
    cases before with
    | nil =>
      obtain ⟨rfl, -⟩ := List.cons.inj hm
      exact h.1
    | cons b before =>
      obtain ⟨rfl, hrest⟩ := List.cons.inj hm
      have hmove := ih (h.2 _) hrest
      exact hmove

/-- Where the note says nothing, the order of the moves does not count. -/
theorem permits_of_mem {m : Watch Unit} {Q : α → Unit → Prop} {p q : Process α} {moves : List Move}
    {move : Move} (h : p.Keeps m Q ()) (hp : p.Path moves q) (hm : move ∈ moves) :
    m.permits () move := by
  obtain ⟨before, after, rfl⟩ := List.append_of_mem hm
  exact h.permits hp

end Keeps

end Process

/-! ## Attempts -/

namespace Attempt

variable {α β γ : Type} {m : Watch γ} {Q : α → γ → Prop} {E : Cause → γ → Prop} {g : γ}

/-- `Process.Keeps` of an attempt: `Q` holds of what it gives, and `E` of why it fails. -/
def Keeps (m : Watch γ) (Q : α → γ → Prop) (E : Cause → γ → Prop) (g : γ) (x : Attempt α) : Prop :=
  x.run.Keeps m (Either Q E) g

theorem meets_iff_keeps {m : Monitor γ} {x : Attempt α} :
    Meets m Q E g x ↔ Keeps m.watch Q E g x := Process.meets_iff_keeps

namespace Keeps

theorem mono {x : Attempt α} {R : α → γ → Prop} {F : Cause → γ → Prop} (h : Keeps m Q E g x)
    (hQ : ∀ a g', Q a g' → R a g') (hE : ∀ c g', E c g' → F c g') : Keeps m R F g x :=
  Process.Keeps.mono h fun
    | .ok a, g', h => hQ a g' h
    | .error c, g', h => hE c g' h

theorem pure {a : α} (h : Q a g) : Keeps m Q E g (Pure.pure a) := h

theorem throw {c : Cause} (h : E c g) : Keeps m Q E g (MonadExcept.throw c) := h

theorem settled {x : Except Cause α} (hQ : ∀ a, x = .ok a → Q a g)
    (hE : ∀ c, x = .error c → E c g) : Keeps m Q E g (settled x) := by
  cases x with
  | ok a => exact hQ a rfl
  | error c => exact hE c rfl

theorem lift {p : Process α} (h : p.Keeps m Q g) : Keeps m Q E g (ExceptT.lift p) :=
  Process.Keeps.bind (h.mono fun _ _ hQ => hQ)

theorem access {c : Run.Access} {Q : c.Answer → γ → Prop} (hc : m.allows g c)
    (hQ : ∀ x, Q x (m.answered g c x)) : Keeps m Q E g (access c) := lift (.ofAccess hc hQ)

theorem access_ignored {c : Run.Access} {Q : c.Answer → γ → Prop} (hc : m.Ignores g c)
    (hQ : ∀ x, Q x g) : Keeps m Q E g (Attempt.access c) := lift (.ofAccess_ignored hc hQ)

theorem wait {w : Wait} {Q : w.Answer → γ → Prop} (hw : m.allowsWait g w)
    (hQ : ∀ x, Q x (m.awaited g w x)) : Keeps m Q E g (wait w) := lift (.ofWait hw hQ)

theorem bind {x : Attempt α} {f : α → Attempt β} {R : β → γ → Prop}
    (h : Keeps m (fun a g' => Keeps m R E g' (f a)) E g x) : Keeps m R E g (x >>= f) := by
  refine Process.Keeps.bind (Process.Keeps.mono h fun a g' ha => ?_)
  cases a with
  | ok a => exact ha
  | error c => exact ha

end Keeps

end Attempt

end Stepwise
