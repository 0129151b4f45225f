import Mathlib.Data.List.Nodup
import Mathlib.Data.List.Sort
import Mathlib.Data.String.Basic
import Stepwise.Proofs.Turns

/-!
# Runs that are hosted

However calls and runs take turns, the register of a service is right, a run is cancelled by its
deletion only, and a run that is left alone does what it does on its own.

* `Hosted.Registry`: the register holds what was created and is not deleted.
* `Hosted.Trace.deleted_of_cancelled`, `Hosted.Trace.cancel_of_deleted`: who is cancelled.
* `Hosted.Trace.course`: a run that is left alone takes the course it takes on its own.
* `Hosted.WellKept`, `Hosted.wellKept`: what is known of a service at every moment.
-/

namespace Stepwise

namespace Hosted

open Service (Task)
open Move (Obeys consult)

/-! ## What the events tell -/

/-- The moves of a run among the events. -/
def movesOf (i : Nat) (es : List Event) : List Move :=
  es.filterMap fun
    | .moved j move => if j = i then some move else none
    | _ => none

/-- A run was created with this id. -/
def Created (es : List Event) (i : Nat) (id : String) : Prop :=
  ∃ ids script values options, .created i ids id script values options ∈ es

/-- A run with this id was created, and has not been deleted. -/
def Standing (es : List Event) (id : String) : Prop :=
  ∃ i, Created es i id ∧ .deleted id (some i) ∉ es

/-- The run was not deleted, and callers did no more than look at it. -/
def Untouched (es : List Event) (i : Nat) : Prop :=
  (∀ id, .deleted id (some i) ∉ es) ∧
    ∀ request id, .called request id (.ok i) ∈ es → request = .look

variable {e : Engine} {es : List Event} {event : Event} {s s' start : Hosted} {i k : Nat}
  {id : String} {ids : List String} {script : Script} {values : Entries Value}
  {options : Run.Options} {move : Move} {t : Task} {found : Option Nat}

/-! ## The register -/

theorem created_snoc : Created (es ++ [event]) i id ↔
    Created es i id ∨ ∃ ids script values options,
      event = .created i ids id script values options := by
  simp only [Created, List.mem_append, List.mem_singleton, exists_or, eq_comm]

/-- The register holds what was created and is not deleted. -/
structure Registry (es : List Event) (s : Hosted) : Prop where
  nodup : (s.service.registered.map Prod.fst).Nodup
  mem_iff {id : String} {i : Nat} :
    (id, i) ∈ s.service.registered ↔ Created es i id ∧ .deleted id (some i) ∉ es
  lt {id : String} {i : Nat} : Created es i id → i < s.service.jobs.size
  created {id : String} {i : Nat} : .deleted id (some i) ∈ es → Created es i id

namespace Registry

/-- Ids are distinct, so that an id leads to what is registered under it. -/
theorem lookup_eq_some (h : Registry es s) :
    s.service.registered.lookup id = some i ↔ (id, i) ∈ s.service.registered := by
  have hmem {j : Nat} (hj : s.service.registered.lookup id = some j) :
      (id, j) ∈ s.service.registered := by
    obtain ⟨before, after, hentries, -⟩ := List.lookup_eq_some_iff.mp hj
    exact hentries ▸ List.mem_append_right _ List.mem_cons_self
  refine ⟨hmem, fun hi => ?_⟩
  cases hj : s.service.registered.lookup id with
  | none => exact absurd rfl (bne_iff_ne.mp (List.lookup_eq_none_iff.mp hj _ hi))
  | some j =>
    have hentry := List.inj_on_of_nodup_map h.nodup (hmem hj) hi rfl
    exact congrArg some (Prod.mk.inj hentry).2

theorem lookup_eq_none (h : Registry es s) :
    s.service.registered.lookup id = none ↔ ¬Standing es id := by
  constructor
  · rintro hnone ⟨i, hi⟩
    have hsome := h.lookup_eq_some.mpr (h.mem_iff.mpr hi)
    rw [hnone] at hsome
    cases hsome
  · intro hid
    cases hlookup : s.service.registered.lookup id with
    | none => rfl
    | some i => exact absurd ⟨i, h.mem_iff.mp (h.lookup_eq_some.mp hlookup)⟩ hid

/-- What neither creates nor deletes a run leaves the register as it is. -/
theorem of_other (h : Registry es s) (hr : s'.service.registered = s.service.registered)
    (hsize : s.service.jobs.size ≤ s'.service.jobs.size)
    (hc : ∀ i ids id script values options, event ≠ .created i ids id script values options)
    (hd : ∀ id found, event ≠ .deleted id found) : Registry (es ++ [event]) s' := by
  have hcreated {i : Nat} {id : String} : Created (es ++ [event]) i id ↔ Created es i id := by
    rw [created_snoc]
    exact or_iff_left fun ⟨ids, script, values, options, he⟩ => hc _ _ _ _ _ _ he
  have hdeleted {i : Nat} {id : String} :
      .deleted id (some i) ∈ es ++ [event] ↔ .deleted id (some i) ∈ es := by
    rw [List.mem_append, List.mem_singleton]
    exact or_iff_left fun he => hd _ _ he.symm
  refine ⟨hr ▸ h.nodup, ?_, fun hi => ?_, fun hi => ?_⟩
  · intro id i
    rw [hr, hcreated, hdeleted, h.mem_iff]
  · exact Nat.lt_of_lt_of_le (h.lt (hcreated.mp hi)) hsize
  · exact hcreated.mpr (h.created (hdeleted.mp hi))

/-- The new run has an index that no run had before, and an id that no standing run has. -/
theorem create (h : Registry es s)
    (hstep : Happens s (.created k ids id script values options) s') :
    Registry (es ++ [.created k ids id script values options]) s' := by
  obtain ⟨rfl, hid, hr, hwork, -⟩ := hstep.created
  have hfree : s.service.registered.lookup id = none := by
    have hnone := List.find?_some hid
    exact Option.isNone_iff_eq_none.mp hnone
  have hcreated {i : Nat} {id' : String} :
      Created (es ++ [.created s.service.jobs.size ids id script values options]) i id' ↔
        Created es i id' ∨ i = s.service.jobs.size ∧ id' = id := by
    rw [created_snoc]
    refine or_congr_right ⟨?_, ?_⟩
    · rintro ⟨_, _, _, _, he⟩
      obtain ⟨rfl, -, rfl, -⟩ := Event.created.inj he
      exact ⟨rfl, rfl⟩
    · rintro ⟨rfl, rfl⟩
      exact ⟨_, _, _, _, rfl⟩
  have hdeleted {i : Nat} {id' : String} :
      .deleted id' (some i) ∈ es ++ [.created s.service.jobs.size ids id script values options] ↔
        .deleted id' (some i) ∈ es := by
    rw [List.mem_append, List.mem_singleton]
    exact or_iff_left nofun
  -- Distinct ids, what is registered, and then the indices of created and of deleted runs.
  refine ⟨?_, ?_, fun hi => ?_, fun hi => ?_⟩
  · rw [hr, List.map_cons, List.nodup_cons]
    refine ⟨fun hmem => ?_, h.nodup⟩
    obtain ⟨entry, hentry, rfl⟩ := List.mem_map.mp hmem
    exact absurd rfl (bne_iff_ne.mp (List.lookup_eq_none_iff.mp hfree _ hentry))
  · intro id' i
    rw [hr, List.mem_cons, hcreated, hdeleted, h.mem_iff, Prod.mk.injEq, or_and_right, or_comm,
      and_comm (a := id' = id)]
    refine or_congr_right ⟨fun hi => ⟨hi, fun hd => ?_⟩, And.left⟩
    -- The index is new, so no run that was deleted before can have it.
    exact Nat.lt_irrefl _ (hi.1 ▸ h.lt (h.created hd))
  · rcases hcreated.mp hi with hi | ⟨rfl, -⟩
    · exact Nat.lt_of_lt_of_le (h.lt hi) hstep.size_le
    · exact lt_of_work? hwork
  · exact hcreated.mpr (.inl (h.created (hdeleted.mp hi)))

/-- Only what is registered under the id goes. -/
theorem delete (h : Registry es s) (hstep : Happens s (.deleted id found) s') :
    Registry (es ++ [.deleted id found]) s' := by
  cases hstep with
  | delete hdelete =>
    obtain ⟨rfl, rfl⟩ := Prod.mk.inj hdelete
    have hcreated {i : Nat} {id' : String} :
        Created (es ++ [.deleted id (s.service.registered.lookup id)]) i id' ↔
          Created es i id' := by
      rw [created_snoc]
      exact or_iff_left nofun
    have hdeleted {i : Nat} {id' : String} :
        .deleted id' (some i) ∈ es ++ [.deleted id (s.service.registered.lookup id)] ↔
          .deleted id' (some i) ∈ es ∨ id' = id ∧ (id, i) ∈ s.service.registered := by
      rw [List.mem_append, List.mem_singleton, Event.deleted.injEq, ← h.lookup_eq_some,
        eq_comm (a := some i)]
    refine ⟨?_, ?_, fun hi => ?_, fun hi => ?_⟩
    · exact h.nodup.sublist (List.filter_sublist.map _)
    · intro id' i
      show _ ∈ s.service.registered.filter _ ↔ _
      rw [List.mem_filter, hcreated, hdeleted, decide_eq_true_iff, not_or, ← and_assoc, ← h.mem_iff]
      refine and_congr_right fun hi => ?_
      exact ⟨fun hne heq => hne heq.1, fun hne heq => hne ⟨heq, heq ▸ hi⟩⟩
    · exact h.lt (hcreated.mp hi)
    · refine hcreated.mpr ?_
      rcases hdeleted.mp hi with hi | ⟨rfl, hi⟩
      · exact h.created hi
      · exact (h.mem_iff.mp hi).1

end Registry

/-- At every moment the register holds what was created and is not deleted. -/
theorem Trace.registry (h : Trace (empty e) es s) : Registry es s := by
  induction h with
  | start => exact ⟨List.nodup_nil, by simp [empty, Created], by simp [Created], nofun⟩
  | snoc _ hstep ih =>
    have hsize := hstep.size_le
    cases hstep with
    | create values hcreate => exact ih.create (.create values hcreate)
    | delete hdelete => exact ih.delete (.delete hdelete)
    | call | list | access | wait | perform | pass => exact ih.of_other rfl hsize nofun nofun

theorem Trace.engine_eq (h : Trace (empty e) es s) : s.service.engine = e := by
  induction h with
  | start => rfl
  | snoc _ hstep ih => exact hstep.engine_eq.trans ih

/-- What is to be done was asked for. -/
theorem Trace.exists_asks (h : Trace (empty e) es s) (ht : t ∈ s.due) :
    ∃ event ∈ es, event.asks = some t := by
  induction h with
  | start => cases ht
  | @snoc es event s s' _ hstep ih =>
    have hearlier (ht : t ∈ s.due) : ∃ event' ∈ es ++ [event], event'.asks = some t := by
      obtain ⟨event', hevent', hasks⟩ := ih ht
      exact ⟨event', List.mem_append_left _ hevent', hasks⟩
    rcases hstep.due with hdue | ⟨before, t', after, rfl, hdue, hdue'⟩
    · rw [hdue, List.mem_append, Option.mem_toList] at ht
      rcases ht with ht | ht
      · exact hearlier ht
      · exact ⟨_, List.mem_append_right _ List.mem_cons_self, ht⟩
    · rw [hdue'] at ht
      rw [hdue] at hearlier
      exact hearlier ((List.sublist_cons_self _ _).append_left _ |>.mem ht)

/-- The ids are listed in their order. -/
theorem Registry.names (h : Registry es s) :
    s.service.names.Pairwise (· < ·) ∧ ∀ id, id ∈ s.service.names ↔ Standing es id := by
  constructor
  · have hnodup : s.service.names.Nodup := (List.mergeSort_perm _ _).nodup_iff.mpr h.nodup
    have hsorted : s.service.names.Pairwise (· ≤ ·) := List.pairwise_mergeSort' _ _
    exact (hsorted.and hnodup).imp fun hle => lt_of_le_of_ne hle.1 hle.2
  · intro id
    rw [Service.names, List.mem_mergeSort, List.mem_map]
    constructor
    · rintro ⟨⟨_, i⟩, hi, rfl⟩
      exact ⟨i, h.mem_iff.mp hi⟩
    · rintro ⟨i, hi⟩
      exact ⟨(id, i), h.mem_iff.mpr hi, rfl⟩

/-! ## Cancelling -/

/-- Only a run that was deleted is cancelled. -/
theorem Trace.deleted_of_cancelled {run : Run} {p : Process (Except Outcome String)}
    (h : Trace (empty e) es s) (hi : s.work? i = some (run, p)) (hrun : run.cancelled = true) :
    ∃ id, .deleted id (some i) ∈ es := by
  induction h generalizing run p with
  | start => cases hi
  | @snoc es event s s' h hstep ih =>
    have hearlier {run : Run} {p : Process (Except Outcome String)}
        (hi : s.work? i = some (run, p)) (hrun : run.cancelled = true) :=
      (ih hi hrun).imp fun _ => List.mem_append_left [event]
    cases hwork : s.work? i with
    | none =>
      obtain ⟨id, options, rfl⟩ := hstep.created_of_work? hwork hi
      cases hrun
    | some work =>
      -- Nothing happened to the run, or it made a move of its own, or a task was performed on it.
      rcases hstep.work?_cases hwork with ⟨-, hi'⟩ | ⟨move, run', p', -, -, hi', hcourse⟩ |
        ⟨t, rfl, rfl, hi'⟩
      · obtain ⟨rfl, rfl⟩ := Prod.mk.inj (Option.some.inj (hi'.symm.trans hi))
        exact hearlier hwork hrun
      · obtain ⟨rfl, rfl⟩ := Prod.mk.inj (Option.some.inj (hi'.symm.trans hi))
        exact hearlier hwork (hcourse.cancelled_eq ▸ hrun)
      · obtain ⟨rfl, rfl⟩ := Prod.mk.inj (Option.some.inj (hi'.symm.trans hi))
        cases t with
        | cancel i =>
          -- A cancellation that is due was asked for by the call that deleted the run.
          obtain ⟨event, hevent, hasks⟩ := h.exists_asks hstep.mem_due
          rcases Event.asks_cases hasks with ⟨_, _, _, _, _, _, -, ht⟩ | ⟨_, id, rfl, ht⟩ |
            ⟨_, request, _, -, ht⟩
          · cases ht
          · cases ht
            exact ⟨id, List.mem_append_left _ hevent⟩
          · cases request <;> cases ht
        | seed | clearOutput | clearHistory => exact hearlier hwork hrun

/-- Who deletes a run is about to cancel it, or has done so. -/
theorem Trace.cancel_of_deleted (h : Trace (empty e) es s) (hi : .deleted id (some i) ∈ es) :
    .cancel i ∈ s.due ∨ ∃ run p, s.work? i = some (run, p) ∧ run.cancelled = true := by
  induction h with
  | start => cases hi
  | @snoc es event s s' h hstep ih =>
    rcases List.mem_append.mp hi with hi | hi
    · have hlt := h.registry.lt (h.registry.created hi)
      obtain ⟨work, hwork⟩ : ∃ work, s.work? i = some work :=
        ⟨_, congrArg (Option.map _) (Array.getElem?_eq_getElem hlt)⟩
      -- The call came earlier: its cancellation is still due, or it has been performed and stays.
      rcases ih hi with hdue | ⟨run, p, hrun, hcancelled⟩
      · rcases hstep.due with hdue' | ⟨before, t, after, rfl, hbefore, hafter⟩
        · exact .inl (hdue' ▸ List.mem_append_left _ hdue)
        · by_cases ht : t = .cancel i
          · subst ht
            refine .inr ⟨work.1.cancel, work.2, ?_, rfl⟩
            exact hstep.performed.trans (congrArg (Option.map _) hwork)
          · rw [hbefore, List.mem_append, List.mem_cons] at hdue
            rw [hafter, List.mem_append]
            exact .inl (hdue.imp_right fun hdue => hdue.resolve_left (Ne.symm ht))
      · right
        rcases hstep.work?_cases hrun with ⟨-, hi'⟩ | ⟨move, run', p', -, -, hi', hcourse⟩ |
          ⟨t, rfl, rfl, hi'⟩
        · exact ⟨run, p, hi', hcancelled⟩
        · exact ⟨run', p', hi', hcourse.cancelled_eq.trans hcancelled⟩
        · refine ⟨t.change run, p, hi', ?_⟩
          cases t with
          | cancel => rfl
          | seed | clearOutput | clearHistory => exact hcancelled
    · obtain rfl := List.mem_singleton.mp hi
      cases hstep with
      | delete hdelete => exact .inl (List.mem_append_right _ List.mem_cons_self)

/-! ## Going on -/

theorem seedsOf_append {due more : List Task} :
    seedsOf i (due ++ more) = seedsOf i due ++ seedsOf i more := List.filterMap_append

theorem eq_seed_of_seed? (h : t.seed? i = some values) : t = .seed i values := by
  cases t with
  | seed j values' =>
    simp only [Task.seed?, Option.ite_none_right_eq_some, Option.some.injEq] at h
    rw [h.1, h.2]
  | cancel | clearOutput | clearHistory => cases h

theorem movesOf_snoc_self : movesOf i (es ++ [.moved i move]) = movesOf i es ++ [move] := by
  simp [movesOf]

theorem movesOf_snoc_of_ne (h : ∀ move, event ≠ .moved i move) :
    movesOf i (es ++ [event]) = movesOf i es := by
  cases event with
  | moved j move =>
    have hj : j ≠ i := by
      rintro rfl
      exact h move rfl
    simp [movesOf, hj]
  | created | deleted | called | listed | performed | passed => simp [movesOf]

theorem movesOf_snoc_performed : movesOf i (es ++ [.performed t]) = movesOf i es :=
  movesOf_snoc_of_ne fun _ he => by cases he

/-- What is to be set on a run is about this run. -/
theorem Happens.seedsOf_of_ne (h : Happens s event s') (hi : event.job? ≠ some i) :
    seedsOf i s'.due = seedsOf i s.due := by
  have hnone {t : Task} (ht : ∀ values, t ≠ .seed i values) : t.seed? i = none :=
    Option.eq_none_iff_forall_ne_some.mpr fun values hv => ht values (eq_seed_of_seed? hv)
  rcases h.due with hdue | ⟨before, t, after, rfl, hdue, hdue'⟩
  · rw [hdue, seedsOf_append]
    cases hasks : event.asks with
    | none => exact List.append_nil _
    | some t =>
      -- Of the tasks that events ask for, only those of its creation set variables on the run.
      have ht : t.seed? i = none := hnone fun values ht => by
        rcases Event.asks_cases hasks with ⟨_, _, _, _, _, _, rfl, ht'⟩ | ⟨_, _, -, ht'⟩ |
          ⟨_, request, _, -, ht'⟩
        · cases ht.symm.trans ht'
          exact hi rfl
        · cases ht.symm.trans ht'
        · cases ht
          cases request <;> cases ht'
      rw [Option.toList_some, seedsOf, seedsOf, List.filterMap_cons_none ht]
      exact List.append_nil _
  · have ht : t.seed? i = none := hnone fun values ht => hi (ht ▸ rfl)
    rw [hdue, hdue', seedsOf_append, seedsOf_append, seedsOf, seedsOf, seedsOf,
      List.filterMap_cons_none ht]

/-- What is set on a run is no longer to be set. -/
theorem Happens.seedsOf_performed (h : Happens s (.performed (.seed i values)) s') :
    ∃ before after, seedsOf i s.due = before ++ values :: after ∧
      seedsOf i s'.due = before ++ after := by
  cases h with
  | @perform before after _ hdue =>
    refine ⟨seedsOf i before, seedsOf i after, ?_, seedsOf_append⟩
    rw [hdue, seedsOf_append]
    exact congrArg (_ ++ ·) (List.filterMap_cons_some (if_pos rfl))

/-- There is nothing to be set on a run before it is created. -/
theorem Trace.seedsOf_eq_nil (h : Trace (empty e) es s) (hi : s.service.jobs.size ≤ i) :
    seedsOf i s.due = [] := by
  refine List.filterMap_eq_nil_iff.mpr fun t ht => Option.eq_none_iff_forall_ne_some.mpr ?_
  intro values hseed
  obtain rfl := eq_seed_of_seed? hseed
  obtain ⟨event, hevent, hasks⟩ := h.exists_asks ht
  rcases Event.asks_cases hasks with ⟨_, ids, id, script, values', options, rfl, ht'⟩ |
    ⟨_, _, -, ht'⟩ | ⟨_, request, _, -, ht'⟩
  · cases ht'
    exact Nat.not_lt.mpr hi (h.registry.lt ⟨ids, script, values, options, hevent⟩)
  · cases ht'
  · cases request <;> cases ht'

/-- Nor does it move before it is created. -/
theorem Trace.movesOf_eq_nil (h : Trace (empty e) es s) (hi : s.service.jobs.size ≤ i) :
    movesOf i es = [] := by
  induction h with
  | start => rfl
  | @snoc es event s s' h hstep ih =>
    rw [← ih (Nat.le_trans hstep.size_le hi)]
    refine movesOf_snoc_of_ne ?_
    rintro move rfl
    obtain ⟨-, _, _, _, _, -, hwork, -⟩ := hstep.moved
    exact Nat.not_lt.mpr hi (lt_of_work? hwork)

/-- A run that has not ended can always go on. -/
theorem goes_on {run : Run} {p : Process (Except Outcome String)} {σ : Type}
    {answer : (w : Wait) → σ → w.Answer × σ} {o : σ} (hi : s.work? i = some (run, p))
    (hp : ∀ result, p ≠ .done result) (ho : Obeys answer o (movesOf i es)) :
    ∃ event s', event.job? = some i ∧ Happens s event s' ∧
      Obeys answer o (movesOf i (es ++ [event])) := by
  -- The variables it begins with are set before it makes its next move.
  cases hseeds : seedsOf i s.due with
  | cons values rest =>
    have hmem : values ∈ seedsOf i s.due := hseeds ▸ List.mem_cons_self
    obtain ⟨t, ht, hseed⟩ := List.mem_filterMap.mp hmem
    obtain rfl := eq_seed_of_seed? hseed
    obtain ⟨before, after, hdue⟩ := List.append_of_mem ht
    refine ⟨.performed (.seed i values), _, rfl, .perform hdue, ?_⟩
    rwa [movesOf_snoc_performed]
  | nil =>
    cases p with
    | done result => exact absurd rfl (hp result)
    | access c next =>
      refine ⟨_, _, rfl, .access hi hseeds, ?_⟩
      rw [movesOf_snoc_self]
      exact Move.obeys_append.mpr ⟨ho, trivial⟩
    | wait w next =>
      refine ⟨_, _, rfl, .wait (answer w (consult answer o (movesOf i es))).1 hi hseeds, ?_⟩
      rw [movesOf_snoc_self]
      exact Move.obeys_append.mpr ⟨ho, rfl, trivial⟩

/-- A new run, on which its variables have yet to be set, or one that has set out on its own. -/
inductive Underway (e : Engine) (id : String) (script : Script) (values : Entries Value)
    (options : Run.Options) (seeds : List (Entries Value)) (moves : List Move) (run : Run)
    (p : Process (Except Outcome String)) : Prop
  | waiting : seeds = [values] → moves = [] → run = Run.create id options e.config →
      p = e.execute id script → Underway e id script values options seeds moves run p
  | out : seeds = [] →
      (e.execute id script).Course ((Run.create id options e.config).seed values) moves p run →
      Underway e id script values options seeds moves run p

theorem Untouched.of_snoc (h : Untouched (es ++ [event]) i) : Untouched es i :=
  ⟨fun id hd => h.1 id (List.mem_append_left _ hd),
    fun request id hc => h.2 request id (List.mem_append_left _ hc)⟩

/-- What is to be done to a run that is left alone is to set its variables. -/
theorem Trace.eq_seed_of_untouched (h : Trace (empty e) es s) (hu : Untouched es t.job)
    (ht : t ∈ s.due) : ∃ values, t = .seed t.job values := by
  obtain ⟨event, hevent, hasks⟩ := h.exists_asks ht
  rcases Event.asks_cases hasks with ⟨i, _, _, _, values, _, -, rfl⟩ | ⟨i, id, rfl, rfl⟩ |
    ⟨i, request, id, rfl, hrequest⟩
  · exact ⟨values, rfl⟩
  · exact absurd hevent (hu.1 id)
  · have hjob : t.job = i := by
      cases request <;> cases hrequest <;> rfl
    rw [hu.2 request id (hjob ▸ hevent)] at hrequest
    cases hrequest

/-- A new run waits for its variables. -/
theorem Trace.underway_created (h : Trace (empty e) es s)
    (hstep : Happens s (.created i ids id script values options) s') :
    ∃ run p, s'.work? i = some (run, p) ∧
      Underway e id script values options (seedsOf i s'.due)
        (movesOf i (es ++ [.created i ids id script values options])) run p := by
  obtain ⟨rfl, -, -, hi, hdue⟩ := hstep.created
  have hmoves : movesOf s.service.jobs.size
      (es ++ [.created s.service.jobs.size ids id script values options]) = [] :=
    (movesOf_snoc_of_ne fun _ he => by cases he).trans (h.movesOf_eq_nil (Nat.le_refl _))
  refine ⟨_, _, hi, ?_⟩
  rw [hmoves, h.engine_eq]
  refine .waiting ?_ rfl rfl rfl
  rw [hdue, seedsOf_append, h.seedsOf_eq_nil (Nat.le_refl _)]
  exact List.filterMap_cons_some (if_pos rfl)

/-- Whatever happens, a run that is left alone stays on its way. -/
theorem Trace.underway_step {run : Run} {p : Process (Except Outcome String)}
    (h : Trace (empty e) es s) (hstep : Happens s event s') (hu : Untouched es i)
    (hi : s.work? i = some (run, p))
    (hway : Underway e id script values options (seedsOf i s.due) (movesOf i es) run p) :
    ∃ run' p', s'.work? i = some (run', p') ∧ Underway e id script values options
      (seedsOf i s'.due) (movesOf i (es ++ [event])) run' p' := by
  rcases hstep.work?_cases hi with ⟨hne, hi'⟩ | ⟨move, run', p', rfl, hdue, hi', hcourse⟩ |
    ⟨t, rfl, rfl, hi'⟩
  · -- Something else happened.
    refine ⟨run, p, hi', ?_⟩
    rw [hstep.seedsOf_of_ne hne, movesOf_snoc_of_ne fun _ he => hne (congrArg Event.job? he)]
    exact hway
  · -- A move of its own, which it makes only after its variables are set.
    refine ⟨run', p', hi', ?_⟩
    have hdue' : s'.due = s.due := by
      rcases hstep.due with hdue' | ⟨_, _, _, he, -⟩
      · exact hdue'.trans (List.append_nil _)
      · cases he
    rw [movesOf_snoc_self, hdue']
    cases hway with
    | waiting hseeds => cases hdue.symm.trans hseeds
    | out hseeds hout => exact .out hseeds (hout.trans hcourse)
  · -- A task was performed on it. No call has touched it, so this was to set its variables.
    refine ⟨t.change run, p, hi', ?_⟩
    rw [movesOf_snoc_performed]
    obtain ⟨values', ht⟩ := h.eq_seed_of_untouched hu hstep.mem_due
    generalize t.job = i at *
    subst ht
    obtain ⟨before, after, hseeds, hseeds'⟩ := hstep.seedsOf_performed
    cases hway with
    | out hnone => exact absurd (hseeds.symm.trans hnone) (by simp)
    | waiting hone hmoves hrun hp =>
      -- Only one call sets variables on a run.
      obtain ⟨rfl, hlast⟩ | ⟨-, hlast⟩ :=
        List.append_eq_singleton_iff.mp (hseeds.symm.trans hone)
      · obtain ⟨rfl, rfl⟩ := List.cons.inj hlast
        refine .out hseeds' ?_
        rw [hmoves, hrun, hp]
        exact .refl
      · cases hlast

/-- A run that is left alone takes the course it takes on its own. -/
theorem Trace.course (h : Trace (empty e) es s)
    (hc : .created i ids id script values options ∈ es) (hu : Untouched es i) :
    ∃ run p, s.work? i = some (run, p) ∧
      Underway e id script values options (seedsOf i s.due) (movesOf i es) run p := by
  induction h with
  | start => cases hc
  | snoc h hstep ih =>
    rcases List.mem_append.mp hc with hc | hc
    · obtain ⟨run, p, hi, hway⟩ := ih hc hu.of_snoc
      exact h.underway_step hstep hu.of_snoc hi hway
    · obtain rfl := List.mem_singleton.mp hc
      exact h.underway_created hstep

/-- A run has come as far as this on the way of a run that is executed on its own, from the same
script, initial variables and options, when waits come out as an oracle tells. -/
structure AsAlone {σ : Type} (e : Engine) (name : String) (script : Script)
    (values : Entries Value) (options : Run.Options) (answer : (w : Wait) → σ → w.Answer × σ)
    (o : σ) (moves : List Move) (run : Run) (p : Process (Except Outcome String)) : Prop where
  /-- It has made the first of the moves, -/
  begins : moves <+: (e.execute name script).moves (.answering answer)
    ((Run.create name options e.config).seed values) o
  /-- it has ended when it has made them all, -/
  ends : (∃ result, p = .done result) ↔ moves = (e.execute name script).moves (.answering answer)
    ((Run.create name options e.config).seed values) o
  /-- and then with the same result, and as the same run but for its name. -/
  result {result : Except Outcome String} : p = .done result →
    ((e.execute name script).run (.answering answer)
      ((Run.create name options e.config).seed values) o).1 = result ∧
    ((e.execute name script).run (.answering answer)
      ((Run.create name options e.config).seed values) o).2.1 = run.named name

/-- The course of a run that is left alone is the one it takes under any name and any oracle that
tells what its waits gave. -/
theorem Underway.asAlone {seeds : List (Entries Value)} {moves : List Move} {run : Run}
    {p : Process (Except Outcome String)} {σ : Type} {answer : (w : Wait) → σ → w.Answer × σ}
    {o : σ} (h : Underway e id script values options seeds moves run p)
    (ho : Obeys answer o moves) (name : String) :
    AsAlone e name script values options answer o moves run p := by
  cases h with
  -- It has not moved yet, and alone it would not have ended without a move either.
  | waiting _ hmoves _ hp =>
    have hdone (id : String) : ¬∃ result, e.execute id script = .done result :=
      fun ⟨result, h⟩ => Engine.execute_ne_done result h
    subst hmoves hp
    refine ⟨List.nil_prefix, iff_of_false (hdone id) fun h => ?_, fun h => (hdone id ⟨_, h⟩).elim⟩
    exact hdone name (Process.moves_eq_nil.mp h.symm)
  | out _ hcourse =>
    have hmoves := Engine.moves_execute_of_course hcourse rfl ho name
    have hrun := Engine.run_execute_of_course hcourse rfl ho name
    have hleft : p.moves (.answering answer) run (consult answer o moves) = [] ↔
        ∃ result, p = .done result := Process.moves_eq_nil
    refine ⟨⟨_, hmoves.symm⟩, ?_, ?_⟩
    · rw [← hleft, ← List.self_eq_append_right]
      exact (Eq.congr_right hmoves).symm
    · rintro result rfl
      exact ⟨congrArg Prod.fst hrun, congrArg (·.2.1) hrun⟩

/-! ## What is known of a service -/

/-- What is known of a service that began without runs, after these events. -/
structure WellKept (e : Engine) (es : List Event) (s : Hosted) : Prop where
  /-- Registered ids are distinct. -/
  distinct : (s.service.registered.map Prod.fst).Nodup
  /-- Registered is what was created and is not deleted. -/
  registered {id : String} {i : Nat} :
    (id, i) ∈ s.service.registered ↔ Created es i id ∧ .deleted id (some i) ∉ es
  /-- A run can be created as soon as the generator has given an id that is free, -/
  creates {ids : List String} {id : String} (script : Script) (values : Entries Value)
    (options : Run.Options) : id ∈ ids → ¬Standing es id →
    ∃ i id' s', Happens s (.created i ids id' script values options) s'
  /-- and it gets the first of these. -/
  created {i : Nat} {ids : List String} {id : String} {script : Script} {values : Entries Value}
    {options : Run.Options} {s' : Hosted} :
    Happens s (.created i ids id script values options) s' →
    ∃ before after, ids = before ++ id :: after ∧ ¬Standing es id ∧
      ∀ other ∈ before, Standing es other
  /-- The list goes strictly upwards, and has the ids that were created and are not deleted. -/
  listed {ids : List String} {s' : Hosted} : Happens s (.listed ids) s' →
    ids.Pairwise (· < ·) ∧ (∀ id, id ∈ ids ↔ Standing es id) ∧ s' = s
  /-- Every call is answered. -/
  answers (id : String) : (∃ found s', Happens s (.deleted id found) s') ∧
    ∀ request, ∃ found s', Happens s (.called request id found) s'
  /-- A deletion that finds a run takes it from the register, and nothing else, and is about to
  cancel it. -/
  deleted {id : String} {i : Nat} {s' : Hosted} : Happens s (.deleted id (some i)) s' →
    (id, i) ∈ s.service.registered ∧
      (∀ entry, entry ∈ s'.service.registered ↔ entry ∈ s.service.registered ∧ entry ≠ (id, i)) ∧
      s'.service.jobs = s.service.jobs ∧ s'.due = s.due ++ [.cancel i]
  /-- One that finds none had an unknown id, and changes nothing. -/
  undeleted {id : String} {s' : Hosted} : Happens s (.deleted id none) s' →
    ¬Standing es id ∧ s' = s
  /-- Every other call finds what is registered under its id, -/
  found {request : Request} {id : String} {i : Nat} {s' : Hosted} :
    Happens s (.called request id (.ok i)) s' →
    (id, i) ∈ s.service.registered ∧ s'.service = s.service
  /-- or reports that its id is unknown, and changes nothing. -/
  unknown {request : Request} {id : String} {c : Cause} {s' : Hosted} :
    Happens s (.called request id (.error c)) s' →
    ¬Standing es id ∧ c = .runNotFound id ∧ s' = s
  /-- As a whole, a deletion tells that there was a run just if there is one, -/
  deletes {id : String} : (s.service.delete id).1 = true ↔ Standing es id
  /-- and where there is none, it leaves the service as it is, and every other call fails. -/
  refuses {id : String} : ¬Standing es id → s.service.delete id = (false, s.service) ∧
    s.service.get id = .error (.runNotFound id) ∧ s.service.await id = .error (.runNotFound id) ∧
    ∀ f, s.service.update id f = .error (.runNotFound id)
  /-- Nothing takes a run from the register but its deletion. -/
  stays {event : Event} {s' : Hosted} {id : String} {i : Nat} : Happens s event s' →
    (id, i) ∈ s.service.registered → (id, i) ∉ s'.service.registered → event = .deleted id (some i)
  /-- What is done to one run leaves the others as they are. -/
  others {event : Event} {s' : Hosted} {i : Nat} : Happens s event s' → event.job? ≠ some i →
    s'.work? i = s.work? i
  /-- Only a run that was deleted is cancelled, -/
  cancelled {i : Nat} {run : Run} {p : Process (Except Outcome String)} :
    s.work? i = some (run, p) → run.cancelled = true → ∃ id, .deleted id (some i) ∈ es
  /-- and one that was deleted is, or is about to be. -/
  cancels {i : Nat} {id : String} : .deleted id (some i) ∈ es →
    .cancel i ∈ s.due ∨ ∃ run p, s.work? i = some (run, p) ∧ run.cancelled = true
  /-- A run that has not ended can go on, whatever an oracle wants its waits to give. -/
  goesOn {i : Nat} {run : Run} {p : Process (Except Outcome String)} {σ : Type}
    {answer : (w : Wait) → σ → w.Answer × σ} {o : σ} : s.work? i = some (run, p) →
    (∀ result, p ≠ .done result) → Obeys answer o (movesOf i es) →
    ∃ event s', event.job? = some i ∧ Happens s event s' ∧
      Obeys answer o (movesOf i (es ++ [event]))
  /-- What the waits of a run gave, some oracle tells. -/
  told (i : Nat) : ∃ (σ : Type) (answer : (w : Wait) → σ → w.Answer × σ) (o : σ),
    Obeys answer o (movesOf i es)
  /-- A run that was not deleted, and that callers only looked at, goes the way it goes when it is
  executed on its own, and so it ends like that. -/
  alone {i : Nat} {ids : List String} {id : String} {script : Script} {values : Entries Value}
    {options : Run.Options} : .created i ids id script values options ∈ es → Untouched es i →
    ∃ run p, s.work? i = some (run, p) ∧ ∀ {σ : Type} (answer : (w : Wait) → σ → w.Answer × σ)
      (o : σ), Obeys answer o (movesOf i es) → ∀ name,
      AsAlone e name script values options answer o (movesOf i es) run p

theorem Trace.stays (h : Trace (empty e) es s) (hstep : Happens s event s')
    (hi : (id, i) ∈ s.service.registered) (hi' : (id, i) ∉ s'.service.registered) :
    event = .deleted id (some i) := by
  have hafter := (h.snoc hstep).registry.mem_iff.not.mp hi'
  obtain ⟨hcreated, hdeleted⟩ := h.registry.mem_iff.mp hi
  by_contra hevent
  refine hafter ⟨created_snoc.mpr (.inl hcreated), fun hmem => ?_⟩
  rcases List.mem_append.mp hmem with hmem | hmem
  · exact hdeleted hmem
  · exact hevent (List.mem_singleton.mp hmem).symm

/-- A service that began without runs stays well kept, whatever happens in whatever order. -/
theorem wellKept (h : Trace (empty e) es s) : WellKept e es s where
  distinct := h.registry.nodup
  registered := h.registry.mem_iff
  creates {ids id} script values options hid hstanding := by
    have hfree : (s.service.registered.lookup id).isNone = true :=
      Option.isNone_iff_eq_none.mpr (h.registry.lookup_eq_none.mpr hstanding)
    obtain ⟨id', hid'⟩ : ∃ id',
        ids.find? (fun n => (s.service.registered.lookup n).isNone) = some id' :=
      Option.isSome_iff_exists.mp (List.find?_isSome.mpr ⟨id, hid, hfree⟩)
    exact ⟨_, id', _, .create values (Service.create_eq_some.mpr ⟨hid', rfl⟩)⟩
  created hstep := by
    obtain ⟨-, hid, -⟩ := hstep.created
    obtain ⟨hfree, before, after, hids, hbefore⟩ := List.find?_eq_some_iff_append.mp hid
    refine ⟨before, after, hids, h.registry.lookup_eq_none.mp (Option.isNone_iff_eq_none.mp hfree),
      fun other hother => ?_⟩
    by_contra hstanding
    have hnone := h.registry.lookup_eq_none.mpr hstanding
    have hsome := hbefore other hother
    rw [hnone] at hsome
    cases hsome
  listed hstep := by
    cases hstep with
    | list => exact ⟨h.registry.names.1, h.registry.names.2, rfl⟩
  answers id := ⟨⟨_, _, .delete rfl⟩, fun request => ⟨_, _, .call request rfl⟩⟩
  deleted {id i s'} hstep := by
    cases hstep with
    | delete hdelete =>
      obtain ⟨hlookup, rfl⟩ := Prod.mk.inj hdelete
      have hi := h.registry.lookup_eq_some.mp hlookup
      refine ⟨hi, fun entry => ?_, rfl, rfl⟩
      show entry ∈ s.service.registered.filter _ ↔ _
      rw [List.mem_filter, decide_eq_true_iff]
      refine and_congr_right fun hentry => not_congr ⟨fun hid => ?_, congrArg Prod.fst⟩
      exact List.inj_on_of_nodup_map h.registry.nodup hentry hi hid
  undeleted {id s'} hstep := by
    cases hstep with
    | @delete _ _ service hdelete =>
      have hlookup : s.service.registered.lookup id = none := congrArg Prod.fst hdelete
      obtain rfl : s.service = service :=
        congrArg Prod.snd ((Service.unregister_of_none hlookup).symm.trans hdelete)
      refine ⟨h.registry.lookup_eq_none.mp hlookup, ?_⟩
      rw [Option.map_none, Option.toList_none, List.append_nil]
  found hstep := by
    cases hstep with
    | call request hfind =>
      exact ⟨h.registry.lookup_eq_some.mp (Service.find_eq_ok.mp hfind), rfl⟩
  unknown {request id c s'} hstep := by
    cases hstep with
    | call request hfind =>
      obtain ⟨hlookup, hc⟩ := Service.find_eq_error.mp hfind
      refine ⟨h.registry.lookup_eq_none.mp hlookup, hc, ?_⟩
      rw [Event.asks, Option.toList_none, List.append_nil]
  deletes {id} := by
    rw [Service.delete_eq, ← not_iff_not, ← h.registry.lookup_eq_none]
    cases hlookup : s.service.registered.lookup id with
    | none => simp [Service.unregister_of_none hlookup]
    | some i => simp [Service.unregister, hlookup]
  refuses {id} hstanding := by
    have hlookup := h.registry.lookup_eq_none.mpr hstanding
    have hfind : s.service.find id = .error (.runNotFound id) :=
      Service.find_eq_error.mpr ⟨hlookup, rfl⟩
    refine ⟨?_, ?_, ?_, fun f => ?_⟩
    · rw [Service.delete_eq, Service.unregister_of_none hlookup]
    · rw [Service.get, hfind]
      rfl
    · rw [Service.await, hfind]
      rfl
    · rw [Service.update, hfind]
      rfl
  stays := h.stays
  others := Happens.work?_of_ne
  cancelled := h.deleted_of_cancelled
  cancels := h.cancel_of_deleted
  goesOn := goes_on
  told i := ⟨_, _, _, Move.obeys_replay (movesOf i es)⟩
  alone hc hu := by
    obtain ⟨run, p, hi, hway⟩ := h.course hc hu
    exact ⟨run, p, hi, fun answer o ho name => hway.asAlone ho name⟩

/-- Two runs that print. The generator gives the id of the first one again, and the first one is
deleted before it has set out. -/
theorem wellKept_collision :
    let prints : Step := ⟨[("action", .str "print_msg"), ("message", .int 1)]⟩
    let script : Script := .steps [prints]
    ∃ es s, Trace (empty {}) es s ∧ WellKept {} es s ∧ .created 0 ["a"] "a" script [] {} ∈ es ∧
      .created 1 ["a", "b"] "b" script [] {} ∈ es ∧
      .called .look "a" (.error (.runNotFound "a")) ∈ es ∧
      ∃ run message, s.work? 1 = some (run, .done (.ok message)) := by
  intro prints script
  have created : Trace (empty {}) [.created 0 ["a"] "a" script [] {},
      .created 1 ["a", "b"] "b" script [] {}] _ :=
    .snoc (.snoc .start (.create [] rfl)) (.create [] rfl)
  have deleted : Trace (empty {}) (_ ++ [.deleted "a" (some 0)] ++ [.performed (.cancel 0)]) _ :=
    .snoc (.snoc created (.delete rfl)) (@Happens.perform _ [.seed 0 [], .seed 1 []] _ _ rfl)
  have seeded : Trace (empty {}) (_ ++ [.performed (.seed 1 [])]) _ :=
    .snoc deleted (@Happens.perform _ [.seed 0 []] _ _ rfl)
  have ended := seeded.trans (trace_of_course (i := 1)
    (Process.course_moves Wait.quiet (Engine.execute {} "b" script) (.create "b" {} {}) ()) rfl rfl)
  have asked : Trace (empty {}) (_ ++ [.called .look "a" (.error (.runNotFound "a"))]) _ :=
    .snoc ended (.call .look rfl)
  exact ⟨_, _, asked, wellKept asked, by simp, by simp, by simp, _, _, rfl⟩

end Hosted

end Stepwise
