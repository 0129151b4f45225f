import Stepwise.Proofs.Carrying
import Stepwise.Run.Execute

/-!
# The tree of steps

A step holds lists of steps, which hold steps again. What is shown of dispatching a step is shown by
induction on this tree, and what is shown of running a list by induction on the list.

* `Step.induct`: induction over a step and the steps in its lists.
* `Engine.runField_children`: the lists that are run are the lists of the step.
* `Engine.Hereditary`: what dispatched steps have from the steps in their lists.
* `Engine.runItems_keeps`, `Engine.execute_keeps_body`: from single steps to lists and scripts.
-/

namespace Stepwise

namespace Step

variable {s t : Step} {field : String} {ts : List Step} {items : List Value} {index : Nat}

theorem ofItems_eq_ok : ofItems index items = .ok ts ↔ items = ts.map toValue := by
  induction items generalizing index ts with
  | nil => cases ts <;> simp [ofItems]
  | cons v vs ih =>
    unfold ofItems
    cases v with
    | dict fields =>
      show (ofItems (index + 1) vs).map (Step.mk fields :: ·) = .ok ts ↔ _
      rw [Except.map_eq_ok]
      constructor
      · rintro ⟨us, hu, rfl⟩
        rw [ih.mp hu]
        rfl
      · intro h
        cases ts with
        | nil => cases h
        | cons u us =>
          obtain ⟨hu, hus⟩ := List.cons.inj h
          obtain rfl : fields = u.fields := Value.dict.inj hu
          exact ⟨us, ih.mpr hus, rfl⟩
    | null | bool b | int n | float x | str text | list vs' =>
      constructor
      · intro h
        cases h
      · intro h
        cases ts with
        | nil => cases h
        | cons u us => cases (List.cons.inj h).1

theorem children?_eq_ok :
    s.children? field = some (.ok ts) ↔ s.get? field = some (.list (ts.map toValue)) := by
  unfold children?
  constructor
  · intro h
    split at h
    · cases h
    · rename_i items hi
      rw [hi, ofItems_eq_ok.mp (Option.some.inj h)]
    · cases h
  · intro h
    rw [h]
    exact congrArg some (ofItems_eq_ok.mpr rfl)

/-- `t` stands in one of the lists of `s`. -/
def Child (t s : Step) : Prop := ∃ field ts, s.children? field = some (.ok ts) ∧ t ∈ ts

/-- `t` is `s`, or stands somewhere in its lists. -/
inductive Within : Step → Step → Prop
  | refl {s : Step} : Within s s
  | child {t u s : Step} : Within t u → u.Child s → Within t s

/-- A child stands in one of the lists among the fields. -/
theorem Child.mem (h : t.Child s) :
    ∃ field items, (field, .list items) ∈ s.fields ∧ t.toValue ∈ items := by
  obtain ⟨field, ts, hts, ht⟩ := h
  exact ⟨field, _, Entries.mem_of_get? (children?_eq_ok.mp hts), List.mem_map_of_mem ht⟩

theorem toValue_inj (h : s.toValue = t.toValue) : s = t := by
  cases s
  cases t
  cases h
  rfl

theorem sizeOf_lt_of_child (h : t.Child s) : sizeOf t < sizeOf s := by
  obtain ⟨field, ts, hts, ht⟩ := h
  have hf := List.sizeOf_lt_of_mem (Entries.mem_of_get? (children?_eq_ok.mp hts))
  have hi := List.sizeOf_lt_of_mem (List.mem_map_of_mem (f := toValue) ht)
  obtain ⟨fields⟩ := s
  obtain ⟨fields'⟩ := t
  simp only [toValue, Prod.mk.sizeOf_spec, Value.list.sizeOf_spec, Value.dict.sizeOf_spec,
    Step.mk.sizeOf_spec] at *
  omega

/-- Induction over a step and the steps in its lists. -/
@[elab_as_elim]
theorem induct {P : Step → Prop} (step : ∀ s, (∀ t, t.Child s → P t) → P s) (s : Step) : P s :=
  step s fun t _ => induct step t
termination_by sizeOf s
decreasing_by exact sizeOf_lt_of_child ‹_›

end Step

/-- An access that belongs to the execution of a script, and to none of its steps. -/
def Run.Access.OfLifecycle : Run.Access → Prop
  | .launch | .start | .announce _ | .enter _ | .blame _ => True
  | _ => False

/-- The accesses of the execution itself are always allowed and leave no note. -/
def Watch.IgnoresLifecycle {γ : Type} (m : Watch γ) : Prop :=
  ∀ (g : γ) (c : Run.Access), c.OfLifecycle → m.Ignores g c

/-- The accesses of the execution itself are always allowed and leave no note. -/
def Monitor.IgnoresLifecycle {γ : Type} (m : Monitor γ) : Prop :=
  ∀ c : Run.Access, c.OfLifecycle → m.Ignores c

theorem Monitor.IgnoresLifecycle.watch {γ : Type} {m : Monitor γ} (h : m.IgnoresLifecycle) :
    m.watch.IgnoresLifecycle :=
  fun g c hc => ⟨(h c hc g).1, fun _ => (h c hc g).2⟩

namespace Engine

variable {γ : Type} {g : γ} {e : Engine} {s : Step} {field : String}

/-! ## Lists -/

/-- What dispatching a step does, in terms of its lists. -/
theorem dispatch_eq (e : Engine) (s : Step) :
    e.dispatch s = e.dispatchWith (e.runField s.fields) s := rfl

theorem runField_eq {fields : Entries Value} {v : Value} (h : fields.get? field = some v) :
    e.runField fields field = e.runList v := by
  induction fields with
  | nil => cases h
  | cons entry rest ih =>
    obtain ⟨name, u⟩ := entry
    rw [runField]
    split
    · rename_i hn
      rw [Entries.get?, if_pos hn] at h
      cases h
      rfl
    · rename_i hn
      rw [Entries.get?, if_neg hn] at h
      exact ih h

theorem runField_children {ts : List Step} (h : s.children? field = some (.ok ts)) :
    e.runField s.fields field = e.runSteps ts :=
  runField_eq (Step.children?_eq_ok.mp h)

/-- An outcome that is an error, and one that is none. -/
def Ends (Q F : Outcome → γ → Prop) (o : Outcome) (g : γ) : Prop :=
  if o.isError then F o g else Q o g

/-! ## Properties that go up the tree -/

section Hereditary

/-- `D` holds of a dispatched step if `L` holds of its lists, and `L` of a list if `D` holds of the
steps in it. -/
structure Hereditary (e : Engine) (D : Process Outcome → Prop)
    (L : Process (Except Outcome Nat) → Prop) : Prop where
  step : ∀ lists s, (∀ field, L (lists field)) → D (e.dispatchWith lists s)
  nothing : D (.done ⟨.success, "", none, none, none, none⟩)
  done : ∀ n, L (.done (.ok n))
  next : ∀ p rest, D p → L rest →
    L (p.bind fun o => if o.isError then .done (.error o) else rest)

namespace Hereditary

variable {D : Process Outcome → Prop} {L : Process (Except Outcome Nat) → Prop}

mutual

theorem dispatchValue (h : e.Hereditary D L) : ∀ v : Value, D (e.dispatchValue v)
  | .dict fields => h.step _ ⟨fields⟩ fun field => runField h fields field
  | .null | .bool _ | .int _ | .float _ | .str _ | .list _ => h.nothing
termination_by structural v => v

theorem runField (h : e.Hereditary D L) :
    ∀ (fields : List (String × Value)) (field : String), L (e.runField fields field)
  | [], _ => h.done 0
  | (name, v) :: rest, field => by
    rw [Engine.runField]
    split
    · exact runList h v
    · exact runField h rest field
termination_by structural fields => fields

theorem runList (h : e.Hereditary D L) : ∀ v : Value, L (e.runList v)
  | .list items => runItems h items 0
  | .null | .bool _ | .int _ | .float _ | .str _ | .dict _ => h.done 0
termination_by structural v => v

theorem runItems (h : e.Hereditary D L) :
    ∀ (items : List Value) (count : Nat), L (e.runItems count items)
  | [], count => h.done count
  | v :: vs, count => h.next _ _ (dispatchValue h v) (runItems h vs (count + 1))
termination_by structural items => items

end

theorem dispatch (h : e.Hereditary D L) (s : Step) : D (e.dispatch s) := h.dispatchValue s.toValue

end Hereditary

end Hereditary

variable {R : List Step → γ → Prop} {F : Outcome → γ → Prop}

section Watches

variable {m : Watch γ}

/-- `R` holds before a list of steps, and each step leads from there to the list of the others. -/
def Guides (e : Engine) (m : Watch γ) (R : List Step → γ → Prop) (F : Outcome → γ → Prop) : Prop :=
  ∀ t ts g, R (t :: ts) g → (e.dispatch t).Keeps m (Ends (fun _ => R ts) F) g

theorem runItems_keeps (hR : e.Guides m R F) {ts : List Step} {count : Nat} (h : R ts g) :
    (e.runItems count (ts.map Step.toValue)).Keeps m (Attempt.Either (fun _ => R []) F) g := by
  induction ts generalizing count g with
  | nil => exact h
  | cons t ts ih =>
    refine Process.Keeps.bind ((hR t ts g h).mono fun o g' ho => ?_)
    unfold Ends at ho
    split
    · rename_i he
      rw [if_pos he] at ho
      exact ho
    · rename_i he
      rw [if_neg he] at ho
      exact ih ho

theorem runSteps_keeps (hR : e.Guides m R F) {ts : List Step} (h : R ts g) :
    (e.runSteps ts).Keeps m (Attempt.Either (fun _ => R []) F) g := runItems_keeps hR h

/-! ## Scripts -/

theorem stepsFrom_keeps (hm : m.IgnoresLifecycle) (hR : e.Guides m R F) {ts : List Step}
    {index : Nat} (h : R ts g) :
    (e.stepsFrom index ts).Keeps m (Attempt.Either (fun _ => R []) F) g := by
  induction ts generalizing index g with
  | nil => exact h
  | cons t ts ih =>
    refine .bind (.ofAccess_ignored (hm _ _ trivial) fun _ => ?_)
    refine Process.Keeps.bind ((hR t ts g h).mono fun o g' ho => ?_)
    unfold Ends at ho
    split
    · rename_i he
      rw [if_pos he] at ho
      exact ho
    · rename_i he
      rw [if_neg he] at ho
      exact ih ho

theorem finish_keeps (hm : m.IgnoresLifecycle) (result : Except Outcome String) :
    (finish result).Keeps m (fun _ g' => g' = g) g := by
  cases result with
  | ok message => exact .ofAccess_ignored (hm _ _ trivial) fun _ => rfl
  | error o =>
    refine .bind (.ofAccess_ignored (hm _ _ trivial) fun _ => ?_)
    exact .ofAccess_ignored (hm _ _ trivial) fun _ => rfl

/-- What holds at the end of the body of a script holds at the end of its execution. -/
theorem execute_keeps_body {Q : Except Outcome String → γ → Prop} (hm : m.IgnoresLifecycle)
    (run : String) {script : Script} (hbody : (e.body script).Keeps m Q g)
    (hlaunched : Q (.error (alreadyStarted run)) g) : (e.execute run script).Keeps m Q g := by
  unfold execute
  refine .bind (.ofAccess_ignored (hm _ _ trivial) fun launched => ?_)
  split
  · exact hlaunched
  · refine .bind (.ofAccess_ignored (hm _ _ trivial) fun _ => ?_)
    refine .bind (.ofAccess_ignored (hm _ _ trivial) fun _ => ?_)
    refine .bind (hbody.mono fun r g' hr => ?_)
    refine .bind ((finish_keeps hm r).mono fun _ g'' hg => ?_)
    rw [hg]
    exact hr

end Watches

section Monitors

variable {m : Monitor γ}

/-- `R` holds before a list of steps, and each step leads from there to the list of the others. -/
def Leads (e : Engine) (m : Monitor γ) (R : List Step → γ → Prop) (F : Outcome → γ → Prop) : Prop :=
  ∀ t ts g, R (t :: ts) g → (e.dispatch t).Meets m (Ends (fun _ => R ts) F) g

theorem Leads.guides (hR : e.Leads m R F) : e.Guides m.watch R F :=
  fun t ts g h => Process.meets_iff_keeps.mp (hR t ts g h)

theorem runSteps_meets (hR : e.Leads m R F) {ts : List Step} (h : R ts g) :
    (e.runSteps ts).Meets m (Attempt.Either (fun _ => R []) F) g :=
  Process.meets_iff_keeps.mpr (runSteps_keeps hR.guides h)

/-- What leads from each step to the next leads through the execution of a script. -/
theorem execute_meets (hm : m.IgnoresLifecycle) (hR : e.Leads m R F) {ts : List Step}
    (run : String) (h : R ts g) (hF : F (alreadyStarted run) g) :
    (e.execute run (.steps ts)).Meets m (Attempt.Either (fun _ => R []) F) g :=
  Process.meets_iff_keeps.mpr
    (execute_keeps_body hm.watch run (stepsFrom_keeps hm.watch hR.guides h) hF)

end Monitors

end Engine

end Stepwise
