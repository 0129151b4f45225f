import Std.Data.String.ToNat
import Stepwise.Proofs.StepTree

/-!
# Where issues are

The check of a script walks over the steps and their lists. Every issue it finds is attached to a
step: to the step itself, or to a list of the step that holds something else. The path of an issue
tells which step that is.

* `mem_stepIssues`: the issues of a step, in terms of its lists.
* `Placed`: the steps of a script with their paths; `Placed.unique` gives a step back from its path.
* `exists_faulty_of_mem_issues`: an issue is attached to a step that has a fault.
-/

namespace Stepwise

variable {r : Registry} {i : Issue} {s t : Step} {path field : String}

/-! ## The issues of a step -/

theorem fieldIssues_eq (action : String) (fields : Entries Value) :
    fieldIssues r action field path fields =
      match fields.get? field with
      | none => []
      | some v => listIssues r action field path v := by
  induction fields with
  | nil => rw [fieldIssues]; rfl
  | cons entry rest ih =>
    obtain ⟨name, v⟩ := entry
    rw [fieldIssues, Entries.get?]
    by_cases h : name = field
    · rw [if_pos h, if_pos h]
    · rw [if_neg h, if_neg h, ih]

theorem mem_itemIssues {index : Nat} {ts : List Step} :
    i ∈ itemIssues r path index (ts.map Step.toValue) ↔
      ∃ n t, ts[n]? = some t ∧ i ∈ stepIssues r (entryPath path (index + n)) t.toValue := by
  induction ts generalizing index with
  | nil => simp [itemIssues]
  | cons t ts ih =>
    rw [List.map_cons, itemIssues, List.mem_append, ih]
    constructor
    · rintro (h | ⟨n, u, hu, h⟩)
      · exact ⟨0, t, rfl, h⟩
      · exact ⟨n + 1, u, hu, by rwa [← Nat.add_assoc, Nat.add_right_comm]⟩
    · rintro ⟨n, u, hu, h⟩
      cases n with
      | zero =>
        cases hu
        exact .inl h
      | succ n => exact .inr ⟨n, u, hu, by rwa [Nat.add_right_comm, Nat.add_assoc]⟩

/-- The issues in one of the lists of a step: those of the steps in it, or that it holds something
else. -/
theorem mem_fieldIssues {action : String} :
    i ∈ fieldIssues r action field path s.fields ↔
      (∃ ts n t, s.children? field = some (.ok ts) ∧ ts[n]? = some t ∧
        i ∈ stepIssues r (entryPath path n) t.toValue) ∨
      (∃ v index, s.get? field = some v ∧ s.children? field = some (.error index) ∧
        i = listIssue action field path v index) := by
  rw [fieldIssues_eq]
  unfold Step.children? Step.get?
  cases hv : s.fields.get? field with
  | none => simp
  | some v =>
    cases v with
    | list items =>
      dsimp only
      rw [listIssues]
      cases hi : Step.ofItems 0 items with
      | ok ts =>
        obtain rfl := Step.ofItems_eq_ok.mp hi
        simp [mem_itemIssues]
      | error index => simp
    | null | bool b | int n | float x | str text | dict fields =>
      simp [listIssues]

theorem mem_stepIssues :
    i ∈ stepIssues r path s.toValue ↔
      i ∈ ownIssues r path s ∨
        ∃ field ∈ listFields r s,
          i ∈ fieldIssues r (s.action?.getD "") field (path ++ "." ++ field) s.fields := by
  rw [Step.toValue, stepIssues, List.mem_append, List.mem_flatMap]

/-! ## Faults -/

/-- Something is wrong with the step itself, or with one of its lists. -/
inductive Faulty (r : Registry) (s : Step) : Prop
  | own {path : String} {i : Issue} : i ∈ ownIssues r path s → Faulty r s
  | list {field : String} {index : Nat} : field ∈ listFields r s →
      s.children? field = some (.error index) → Faulty r s

/-- The path of the issue is the step's own path, or that of one of its lists. -/
def Issue.Attached (i : Issue) (path : String) : Prop :=
  i.path = path ∨ ∃ field ∈ childFields, i.path = path ++ "." ++ field

/-- The steps of a script and of the lists in them, with their paths. -/
inductive Placed (ss : List Step) : String → Step → Prop
  | top {n : Nat} {s : Step} : ss[n]? = some s → Placed ss (entryPath "steps" n) s
  | inner {path field : String} {s t : Step} {ts : List Step} {n : Nat} : Placed ss path s →
      field ∈ childFields → s.children? field = some (.ok ts) → ts[n]? = some t →
      Placed ss (entryPath (path ++ "." ++ field) n) t

theorem mem_childFields_of_mem_listFields (h : field ∈ listFields r s) : field ∈ childFields := by
  unfold listFields at h
  split at h
  · cases h
  · exact (List.mem_filter.mp h).1

theorem path_of_mem_ownIssues (h : i ∈ ownIssues r path s) : i.path = path := by
  unfold ownIssues at h
  split at h
  · rw [List.mem_singleton.mp h]
  · split at h
    · rw [List.mem_singleton.mp h]
    · split at h
      · rw [List.mem_singleton.mp h]
      · cases h

/-- The steps in the script at hand are searched from a step inwards. -/
theorem exists_faulty_of_mem_stepIssues {ss : List Step} (hs : Placed ss path s)
    (h : i ∈ stepIssues r path s.toValue) :
    ∃ q u, Placed ss q u ∧ i.Attached q ∧ Faulty r u := by
  induction s using Step.induct generalizing path with
  | step s ih =>
    obtain ho | ⟨field, hf, hi⟩ := mem_stepIssues.mp h
    · exact ⟨path, s, hs, .inl (path_of_mem_ownIssues ho), .own ho⟩
    · have hc := mem_childFields_of_mem_listFields hf
      obtain ⟨ts, n, t, hts, ht, hi⟩ | ⟨v, index, -, hx, rfl⟩ := mem_fieldIssues.mp hi
      · exact ih t ⟨field, ts, hts, List.mem_of_getElem? ht⟩ (.inner hs hc hts ht) hi
      · exact ⟨path, s, hs, .inr ⟨field, hc, rfl⟩, .list hf hx⟩

/-- An issue of a script is attached to a step that has a fault. -/
theorem exists_faulty_of_mem_issues {ss : List Step} (h : i ∈ Script.issues r (.steps ss)) :
    ∃ path s, Placed ss path s ∧ i.Attached path ∧ Faulty r s := by
  obtain ⟨n, s, hs, hi⟩ := mem_itemIssues.mp h
  rw [Nat.zero_add] at hi
  exact exists_faulty_of_mem_stepIssues (.top hs) hi

/-! ## Paths -/

/-- Two lists that are cut at the last place of an element are cut alike. -/
theorem append_cons_inj {α : Type} {c : α} {xs xs' ys ys' : List α}
    (h : xs ++ c :: ys = xs' ++ c :: ys') (hy : c ∉ ys) (hy' : c ∉ ys') : xs = xs' ∧ ys = ys' := by
  obtain ⟨zs, rfl, hz⟩ | ⟨zs, rfl, hz⟩ := List.append_eq_append_iff.mp h
  · cases zs with
    | nil => exact ⟨(List.append_nil xs).symm, (List.cons.inj hz).2⟩
    | cons z zs =>
      obtain ⟨-, rfl⟩ := List.cons.inj hz
      simp at hy
  · cases zs with
    | nil => exact ⟨List.append_nil xs', (List.cons.inj hz).2.symm⟩
    | cons z zs =>
      obtain ⟨-, rfl⟩ := List.cons.inj hz
      simp at hy'

theorem toList_entryPath (path : String) (n : Nat) :
    (entryPath path n).toList = path.toList ++ '[' :: (n.repr.toList ++ [']']) := by
  simp [entryPath, String.toList_append]

theorem entryPath_inj {p q : String} {n m : Nat} (h : entryPath p n = entryPath q m) :
    p = q ∧ n = m := by
  have hdigits (k : Nat) : '[' ∉ k.repr.toList ++ [']'] := by
    intro hk
    rcases List.mem_append.mp hk with hk | hk
    · rw [Nat.toList_repr] at hk
      exact absurd (Nat.isDigit_of_mem_toDigits (by decide) (by decide) hk) (by decide)
    · exact absurd hk (by decide)
  have hl := congrArg String.toList h
  rw [toList_entryPath, toList_entryPath] at hl
  obtain ⟨hp, hn⟩ := append_cons_inj hl (hdigits n) (hdigits m)
  exact ⟨String.toList_injective hp,
    Nat.repr_inj.mp (String.toList_injective (List.append_cancel_right hn))⟩

theorem toList_fieldPath (path field : String) :
    (path ++ "." ++ field).toList = path.toList ++ '.' :: field.toList := by
  simp [String.toList_append]

theorem fieldPath_inj {p q field field' : String} (hf : field ∈ childFields)
    (hf' : field' ∈ childFields) (h : p ++ "." ++ field = q ++ "." ++ field') :
    p = q ∧ field = field' := by
  have hdot : ∀ f ∈ childFields, '.' ∉ f.toList := by decide
  have hl := congrArg String.toList h
  rw [toList_fieldPath, toList_fieldPath] at hl
  obtain ⟨hp, hf⟩ := append_cons_inj hl (hdot field hf) (hdot field' hf')
  exact ⟨String.toList_injective hp, String.toList_injective hf⟩

/-- The path of a step ends otherwise than that of a list. -/
theorem entryPath_ne_fieldPath {p q : String} {n : Nat} (hf : field ∈ childFields) :
    entryPath p n ≠ q ++ "." ++ field := by
  intro h
  have hl : (entryPath p n).toList.getLast? = some ']' := by
    rw [toList_entryPath, ← List.cons_append, ← List.append_assoc, List.getLast?_concat]
  rw [h, toList_fieldPath] at hl
  simp only [childFields, List.mem_cons, List.not_mem_nil, or_false] at hf
  rcases hf with rfl | rfl | rfl | rfl <;> simp at hl

/-- The list of all steps is no list in a step. -/
theorem steps_ne_fieldPath (p field : String) : "steps" ≠ p ++ "." ++ field := by
  intro h
  have hl : '.' ∈ "steps".toList := by
    rw [h, toList_fieldPath]
    exact List.mem_append_right _ List.mem_cons_self
  exact absurd hl (by decide)

namespace Placed

variable {ss : List Step} {p q : String}

theorem path_eq (h : Placed ss p s) : ∃ base n, p = entryPath base n := by
  cases h with
  | top => exact ⟨_, _, rfl⟩
  | inner => exact ⟨_, _, rfl⟩

/-- A path belongs to one step. -/
theorem unique (h : Placed ss p s) (h' : Placed ss p t) : s = t := by
  generalize hq : p = q at h'
  induction h generalizing q t with
  | top hs =>
    cases h' with
    | top ht =>
      obtain ⟨-, rfl⟩ := entryPath_inj hq
      rw [hs] at ht
      exact Option.some.inj ht
    | inner hu hf hts ht => exact absurd (entryPath_inj hq).1 (steps_ne_fieldPath _ _)
  | inner hu hf hts ht ih =>
    cases h' with
    | top ht' => exact absurd (entryPath_inj hq).1.symm (steps_ne_fieldPath _ _)
    | inner hu' hf' hts' ht' =>
      obtain ⟨hpath, rfl⟩ := entryPath_inj hq
      obtain ⟨rfl, rfl⟩ := fieldPath_inj hf hf' hpath
      obtain rfl := ih _ rfl hu'
      rw [hts] at hts'
      cases hts'
      rw [ht] at ht'
      exact Option.some.inj ht'

end Placed

/-- An issue is attached to one step. -/
theorem Issue.Attached.unique {ss : List Step} {p q : String} (h : i.Attached p)
    (h' : i.Attached q) (hs : Placed ss p s) (ht : Placed ss q t) : s = t := by
  obtain ⟨_, _, rfl⟩ := hs.path_eq
  obtain ⟨_, _, rfl⟩ := ht.path_eq
  obtain h | ⟨f, hf, h⟩ := h
  · obtain h' | ⟨f', hf', h'⟩ := h'
    · rw [h] at h'
      exact hs.unique (h' ▸ ht)
    · exact absurd (h.symm.trans h') (entryPath_ne_fieldPath hf')
  · obtain h' | ⟨f', hf', h'⟩ := h'
    · exact absurd (h'.symm.trans h) (entryPath_ne_fieldPath hf)
    · obtain ⟨hpq, -⟩ := fieldPath_inj hf hf' (h.symm.trans h')
      exact hs.unique (hpq ▸ ht)

end Stepwise
