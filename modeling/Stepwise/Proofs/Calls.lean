import Mathlib.Data.List.Chain
import Stepwise.Proofs.Recording

/-!
# Trees of calls

A step that is dispatched may dispatch the steps in its lists, and so on. What a script has done is
told by the tree of these calls. A call that was refused stands in the tree without an entry in the
history; any other has one, behind those of the calls it made.

* `Call`, `Call.entries`: the tree, and its entries in post-order.
* `InTurn`: calls made one after the other, up to the first that fails.
* `Engine.Makes`: the trees that a step can come to.
* `Engine.Makes.closes`: the failing entries of a call are at its end, and belong to calls one
  inside the other.
-/

namespace Stepwise

/-- A step that was dispatched or a line that was reached, and the steps it dispatched itself. -/
inductive Call where
  /-- It ended before its action was asked. -/
  | refused (point : Run.Checkpoint) (o : Outcome)
  /-- Its action was asked, and made `inner` calls before it came to its outcome. -/
  | handled (point : Run.Checkpoint) (entry : Run.Entry) (inner : List Call)

namespace Call

/-- What came of a call. -/
def outcome : Call → Outcome
  | refused _ o => o
  | handled _ entry _ => entry.outcome

/-- The calls that a call made. -/
def inner : Call → List Call
  | refused .. => []
  | handled _ _ inner => inner

/-- The entry a call has in the history. -/
def entry? : Call → Option Run.Entry
  | refused .. => none
  | handled _ entry _ => some entry

mutual

/-- The entries of a call in the history: those of the calls it made, in their order, and then its
own. -/
def entries : Call → List Run.Entry
  | refused .. => []
  | handled _ entry inner => entriesOf inner ++ [entry]

/-- The entries of calls. -/
def entriesOf : List Call → List Run.Entry
  | [] => []
  | c :: cs => entries c ++ entriesOf cs

end

mutual

/-- The accesses with which a call begins and ends, around those of the calls it made. -/
def trail : Call → List Run.Access
  | refused point _ => [.poll point]
  | handled point entry inner => .poll point :: (trailOf inner ++ [.log entry])

/-- The accesses of calls. -/
def trailOf : List Call → List Run.Access
  | [] => []
  | c :: cs => trail c ++ trailOf cs

end

theorem entriesOf_eq (cs : List Call) : entriesOf cs = cs.flatMap entries := by
  induction cs with
  | nil => rfl
  | cons c cs ih => rw [entriesOf, ih, List.flatMap_cons]

theorem trailOf_eq (cs : List Call) : trailOf cs = cs.flatMap trail := by
  induction cs with
  | nil => rfl
  | cons c cs ih => rw [trailOf, ih, List.flatMap_cons]

mutual

/-- The entries are written where the trail says. -/
theorem entry?_trail : ∀ c : Call, c.trail.filterMap Run.Access.entry? = c.entries
  | refused point o => rfl
  | handled point entry inner => by
    rw [trail, entries, List.filterMap_cons_none rfl, List.filterMap_append, entry?_trailOf inner]
    rfl

theorem entry?_trailOf : ∀ cs : List Call,
    (trailOf cs).filterMap Run.Access.entry? = entriesOf cs
  | [] => rfl
  | c :: cs => by
    rw [trailOf, entriesOf, List.filterMap_append, entry?_trail c, entry?_trailOf cs]

end

end Call

/-- Calls for these tasks, made one after the other up to the first that ends with an error, which
is then the fault. -/
inductive InTurn {τ : Type} (Makes : τ → Call → Prop) : List τ → List Call → Option Outcome → Prop
  | nil : InTurn Makes [] [] none
  | fault {t : τ} {ts : List τ} {c : Call} : Makes t c → c.outcome.isError = true →
      InTurn Makes (t :: ts) [c] (some c.outcome)
  | cons {t : τ} {ts : List τ} {c : Call} {cs : List Call} {fault : Option Outcome} : Makes t c →
      c.outcome.isError = false → InTurn Makes ts cs fault → InTurn Makes (t :: ts) (c :: cs) fault

namespace InTurn

variable {τ : Type} {Makes : τ → Call → Prop} {ts us : List τ} {cs ds : List Call}
  {fault : Option Outcome} {t : τ} {c : Call}

theorem append (h : InTurn Makes ts cs none) (h' : InTurn Makes us ds fault) :
    InTurn Makes (ts ++ us) (cs ++ ds) fault := by
  generalize hnone : (none : Option Outcome) = ended at h
  induction h with
  | nil => exact h'
  | fault => cases hnone
  | cons hc ho _ ih => exact .cons hc ho (ih hnone)

/-- One more call that succeeds. -/
theorem snoc (h : InTurn Makes ts cs none) (hc : Makes t c) (ho : c.outcome.isError = false) :
    InTurn Makes (ts ++ [t]) (cs ++ [c]) none := h.append (.cons hc ho .nil)

/-- One more call, which fails. -/
theorem snoc_fault (h : InTurn Makes ts cs none) (hc : Makes t c) (ho : c.outcome.isError = true) :
    InTurn Makes (ts ++ t :: us) (cs ++ [c]) (some c.outcome) := h.append (.fault hc ho)

/-- Without a fault, all calls succeeded. -/
theorem succeeded (h : InTurn Makes ts cs none) (hc : c ∈ cs) : c.outcome.isError = false := by
  generalize hnone : (none : Option Outcome) = ended at h
  induction h with
  | nil => cases hc
  | fault => cases hnone
  | cons _ ho _ ih =>
    rcases List.mem_cons.mp hc with rfl | hc
    · exact ho
    · exact ih hc hnone

end InTurn

namespace Engine

/-- The steps that a step dispatches when it comes to this outcome. -/
inductive Serves (s : Step) : Action.Kind → Outcome → List Step → Prop
  | leaf {k : Action.Kind} {o : Outcome} : k ≠ .condition → k ≠ .loop → Serves s k o []
  | undecided {o : Outcome} : o.isError = true → Serves s .condition o []
  | branch {o : Outcome} {field : String} {ts : List Step} : field ∈ ["if_true", "if_false"] →
      s.children? field = some (.ok ts) → Serves s .condition o ts
  | passes {o : Outcome} {ts : List Step} (n : Nat) : s.children? "loop_steps" = some (.ok ts) →
      Serves s .loop o (List.replicate n ts).flatten

/-- The calls a step can come to. A fault among the calls that a step made is its outcome. -/
inductive Makes (e : Engine) : Step → Call → Prop
  | refused {s : Step} {c : Cause} : e.Unprepared s c →
      Makes e s (.refused (.step s) (e.failure s.action? c))
  | handled {s s' : Step} {k : Action.Kind} {o : Outcome} {us : List Step} {inner : List Call}
      {fault : Option Outcome} : e.Prepared s (.ofKind k) s' → Serves s k o us →
      InTurn (Makes e) us inner fault → (∀ o', fault = some o' → o = o') →
      Makes e s (.handled (.step s) ⟨k.name, o⟩ inner)

end Engine

/-! ## Where a failure comes from -/

namespace Call

theorem sizeOf_lt_of_inner {c d : Call} (h : d ∈ c.inner) : sizeOf d < sizeOf c := by
  cases c with
  | refused => cases h
  | handled point entry inner =>
    have := List.sizeOf_lt_of_mem (show d ∈ inner from h)
    simp only [handled.sizeOf_spec]
    omega

/-- Induction over a call and the calls it made. -/
@[elab_as_elim]
theorem induct {P : Call → Prop} (step : ∀ c, (∀ d ∈ c.inner, P d) → P c) (c : Call) : P c :=
  step c fun d _ => induct step d
termination_by sizeOf c
decreasing_by exact sizeOf_lt_of_inner ‹_›

/-- `c` failed through these calls, from the one where the failure began outwards: each was made by
the next, which handed its outcome on. -/
structure FailsThrough (c : Call) (chain : List Call) : Prop where
  outermost : chain.getLast? = some c
  outcome : ∀ d ∈ chain, d.outcome = c.outcome
  nested : chain.IsChain fun d d' => d ∈ d'.inner
  controls : ∀ d ∈ chain.tail, ∃ entry, d.entry? = some entry ∧
    (entry.action = "condition" ∨ entry.action = "loop")
  origin : ∀ d ∈ chain.head?, ∀ d' ∈ d.inner, d'.outcome.isError = false

namespace FailsThrough

variable {c d : Call} {chain : List Call}

theorem here (h : ∀ d ∈ c.inner, d.outcome.isError = false) : c.FailsThrough [c] where
  outermost := rfl
  outcome d hd := congrArg Call.outcome (List.mem_singleton.mp hd)
  nested := .singleton c
  controls _ hd := nomatch hd
  origin d hd := by
    obtain rfl := Option.some.inj hd
    exact h

theorem outwards (h : d.FailsThrough chain) (hd : d ∈ c.inner) (ho : d.outcome = c.outcome)
    {entry : Run.Entry} (hc : c.entry? = some entry)
    (ha : entry.action = "condition" ∨ entry.action = "loop") : c.FailsThrough (chain ++ [c]) := by
  cases chain with
  | nil => cases h.outermost
  | cons first rest =>
    exact
      { outermost := List.getLast?_concat
        outcome := fun d' hd' => by
          rcases List.mem_append.mp hd' with hd' | hd'
          · exact (h.outcome d' hd').trans ho
          · rw [List.mem_singleton.mp hd']
        nested := by
          refine List.isChain_append.mpr ⟨h.nested, .singleton c, fun x hx y hy => ?_⟩
          obtain rfl := Option.some.inj (h.outermost.symm.trans hx)
          obtain rfl := Option.some.inj hy
          exact hd
        controls := fun d' hd' => by
          rcases List.mem_append.mp hd' with hd' | hd'
          · exact h.controls d' hd'
          · obtain rfl := List.mem_singleton.mp hd'
            exact ⟨entry, hc, ha⟩
        origin := h.origin }

/-- What the call came to stands in all entries on the way. -/
theorem entry_outcome (h : c.FailsThrough chain) :
    ∀ entry ∈ chain.filterMap entry?, entry.outcome = c.outcome := by
  intro entry he
  obtain ⟨d, hd, hentry⟩ := List.mem_filterMap.mp he
  rw [← h.outcome d hd]
  cases d with
  | refused => cases hentry
  | handled =>
    obtain rfl := Option.some.inj hentry
    rfl

/-- All entries on the way but the first belong to conditions and loops. -/
theorem entry_control (h : c.FailsThrough chain) :
    ∀ entry ∈ (chain.filterMap entry?).tail,
      entry.action = "condition" ∨ entry.action = "loop" := by
  cases chain with
  | nil => exact fun _ he => nomatch he
  | cons first rest =>
    intro entry he
    have hrest : entry ∈ rest.filterMap entry? := by
      cases hfirst : first.entry? with
      | none =>
        rw [List.filterMap_cons_none hfirst] at he
        exact List.mem_of_mem_tail he
      | some e =>
        rw [List.filterMap_cons_some hfirst] at he
        exact he
    obtain ⟨d, hd, hentry⟩ := List.mem_filterMap.mp hrest
    obtain ⟨entry', hentry', ha⟩ := h.controls d hd
    obtain rfl := Option.some.inj (hentry.symm.trans hentry')
    exact ha

end FailsThrough

/-- The calls a fault among `cs` came through: those through which the last of them failed, and none
if there was no fault. -/
inductive Via (cs : List Call) : Option Outcome → List Call → Prop
  | none : Via cs none []
  | last {c : Call} {chain : List Call} : cs.getLast? = some c → c.outcome.isError = true →
      c.FailsThrough chain → Via cs (some c.outcome) chain

/-- The entries of the calls are those of successes, and then those of the calls the fault came
through. -/
def Closes (cs : List Call) (fault : Option Outcome) : Prop :=
  ∃ before chain, cs.flatMap entries = before ++ chain.filterMap entry? ∧
    (∀ entry ∈ before, entry.outcome.isError = false) ∧ Via cs fault chain

/-- The outcome of a call that failed. -/
def fault? (c : Call) : Option Outcome := if c.outcome.isError then some c.outcome else none

section

variable {c : Call} {cs : List Call} {fault : Option Outcome} {point : Run.Checkpoint}
  {entry : Run.Entry} {inner : List Call}

theorem fault?_of_error (h : c.outcome.isError = true) : c.fault? = some c.outcome := if_pos h

theorem fault?_of_success (h : c.outcome.isError = false) : c.fault? = none :=
  if_neg (Bool.eq_false_iff.mp h)

theorem Via.cons {chain : List Call} (h : Via cs fault chain) : Via (c :: cs) fault chain := by
  cases h with
  | none => exact .none
  | last hlast ho hchain =>
    refine .last ?_ ho hchain
    rw [List.getLast?_cons, hlast]
    rfl

theorem Via.isError {o : Outcome} {chain : List Call} (h : Via cs (some o) chain) :
    o.isError = true := by
  cases h with
  | last _ ho _ => exact ho

theorem Closes.nil : Closes [] none := ⟨[], [], rfl, fun _ h => (nomatch h), .none⟩

theorem Closes.cons (h : Closes [c] none) (hcs : Closes cs fault) : Closes (c :: cs) fault := by
  obtain ⟨before, chain, hc, hbefore, hvia⟩ := h
  obtain ⟨before', chain', hcs, hbefore', hvia'⟩ := hcs
  cases hvia
  refine ⟨before ++ before', chain', ?_, fun entry he => ?_, hvia'.cons⟩
  · rw [List.flatMap_singleton, List.filterMap_nil, List.append_nil] at hc
    rw [List.flatMap_cons, hc, hcs, List.append_assoc]
  · rcases List.mem_append.mp he with he | he
    · exact hbefore entry he
    · exact hbefore' entry he

/-- The entry of a call that succeeded, behind those of calls that did. -/
theorem Closes.success (h : Closes inner none) (ho : entry.outcome.isError = false) :
    Closes [handled point entry inner] none := by
  obtain ⟨before, chain, hinner, hbefore, hvia⟩ := h
  cases hvia
  refine ⟨before ++ [entry], [], ?_, fun entry' he => ?_, .none⟩
  · rw [List.flatMap_singleton, entries, entriesOf_eq, hinner, List.filterMap_nil, List.append_nil,
      List.append_nil]
  · rcases List.mem_append.mp he with he | he
    · exact hbefore entry' he
    · rw [List.mem_singleton.mp he]
      exact ho

/-- The entry of a call that failed, behind those of the calls it made. -/
theorem Closes.failure (h : Closes inner fault) (ho : entry.outcome.isError = true)
    (hchain : ∀ chain, Via inner fault chain →
      (handled point entry inner).FailsThrough (chain ++ [handled point entry inner])) :
    Closes [handled point entry inner] (some entry.outcome) := by
  obtain ⟨before, chain, hinner, hbefore, hvia⟩ := h
  refine ⟨before, chain ++ [handled point entry inner], ?_, hbefore, ?_⟩
  · rw [List.flatMap_singleton, entries, entriesOf_eq, hinner, List.filterMap_append,
      List.append_assoc]
    rfl
  · exact .last (c := handled point entry inner) rfl ho (hchain chain hvia)

/-- A call that was refused has no entry. -/
theorem Closes.refused {o : Outcome} (ho : o.isError = true) :
    Closes [Call.refused point o] (some o) :=
  ⟨[], [Call.refused point o], rfl, fun _ h => (nomatch h),
    .last (c := Call.refused point o) rfl ho (.here fun _ h => nomatch h)⟩

end

end Call

/-- Calls made in turn close with their fault, if each of them does. -/
theorem InTurn.closes {τ : Type} {Makes : τ → Call → Prop} {ts : List τ} {cs : List Call}
    {fault : Option Outcome} (h : InTurn Makes ts cs fault)
    (hcs : ∀ t, ∀ c ∈ cs, Makes t c → Call.Closes [c] c.fault?) : Call.Closes cs fault := by
  induction h with
  | nil => exact .nil
  | fault hc ho =>
    have := hcs _ _ List.mem_cons_self hc
    rwa [Call.fault?_of_error ho] at this
  | cons hc ho _ ih =>
    have := hcs _ _ List.mem_cons_self hc
    rw [Call.fault?_of_success ho] at this
    exact this.cons (ih fun t d hd => hcs t d (List.mem_cons_of_mem _ hd))

namespace Engine

theorem Serves.control {s : Step} {k : Action.Kind} {o : Outcome} {us : List Step}
    (h : Serves s k o us) (hus : us ≠ []) : k.name = "condition" ∨ k.name = "loop" := by
  cases h with
  | leaf | undecided => exact absurd rfl hus
  | branch => exact .inl rfl
  | passes => exact .inr rfl

/-- The failing entries of a call come last, and belong to the calls through which it failed. -/
theorem Makes.closes {e : Engine} {s : Step} {c : Call} (h : e.Makes s c) :
    Call.Closes [c] c.fault? := by
  induction c using Call.induct generalizing s with
  | step c ih =>
    cases h with
    | refused => exact .refused rfl
    | @handled s s' k o us inner fault hp hs hturn hfault =>
      have hinner := hturn.closes fun t d hd hmakes => ih d hd hmakes
      cases ho : o.isError with
      | false =>
        rw [Call.fault?_of_success (c := .handled (.step s) ⟨k.name, o⟩ inner) ho]
        cases fault with
        | none => exact hinner.success ho
        | some o' =>
          obtain ⟨_, chain, _, _, hvia⟩ := hinner
          obtain rfl := hfault o' rfl
          rw [hvia.isError] at ho
          cases ho
      | true =>
        rw [Call.fault?_of_error (c := .handled (.step s) ⟨k.name, o⟩ inner) ho]
        refine hinner.failure ho fun chain hvia => ?_
        cases hvia with
        | none => exact .here fun d hd => hturn.succeeded hd
        | last hlast _ hchain =>
          have hd := List.mem_of_getLast? hlast
          have hus : us ≠ [] := by
            rintro rfl
            cases hturn
          exact hchain.outwards hd (hfault _ rfl).symm rfl (hs.control hus)

end Engine

end Stepwise
