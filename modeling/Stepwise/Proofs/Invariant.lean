import Stepwise.Proofs.StepTree

/-!
# Invariants of a watch

An invariant of a watch is a property of its note that nothing a step or a line does can break, but
for an answer that tells of a cancellation; and such an answer ends whatever is being done with an
outcome that says so. What holds of the single accesses, waits and commands then holds of every step,
however deep its lists go, and of every script.

* `Watch.Maintains`: the note keeps an invariant.
* `Engine.dispatch_keeps_invariant`: by induction over the tree of steps.
* `Engine.body_keeps_invariant`: the steps or the lines of a script.
-/

namespace Stepwise

/-- The outcome says that the run was cancelled. -/
def Outcome.IsCancelled (o : Outcome) : Prop := o.isError = true ∧ o.category = some .cancelled

variable {γ : Type}

/-- The invariant holds, or what has ended was cancelled. -/
def Watch.Kept (I : γ → Prop) (o : Outcome) (g : γ) : Prop := I g ∨ o.IsCancelled

/-- As long as `I` holds of the note, steps and lines may do their work, and `I` goes on to hold
unless they are told of a cancellation. -/
structure Watch.Maintains (m : Watch γ) (I : γ → Prop) : Prop where
  lenient : ∀ g, I g → m.Lenient (fun c g' => I g' ∨ c = .cancelled) g
  polls : ∀ g point, I g → m.allows g (.poll point) ∧ I (m.answered g (.poll point) false)
  logs : ∀ g entry, m.Ignores g (.log entry)
  commands : ∀ g k s a, I g → Action.read k s = .ok a → m.AllowsCommand g a

/-! ## Lines -/

namespace Snippet

variable {config : Config}

/-- What comes of a line. -/
def outcome (config : Config) (index : Nat) : Except Cause String → Outcome
  | .ok message => .success actionName message
  | .error cause => failure config index cause

/-- A line takes its turn, looks for a cancellation, and is carried out. -/
theorem statementsFrom_cons (done index : Nat) (line : String) (rest : List (Nat × String)) :
    statementsFrom config done ((index, line) :: rest) =
      .wait .turn fun _ => .access (.poll .line) fun cancelled =>
        if cancelled then .done (.error (failure config index .cancelled))
        else .access (.enter index) fun _ => (carryOutLine line).run.bind fun result =>
          .access (.log ⟨actionName, outcome config index result⟩) fun _ =>
            if (outcome config index result).isError then
              .done (.error (outcome config index result))
            else statementsFrom config (done + 1) rest := by
  rw [statementsFrom]
  refine congrArg (Process.wait .turn) (funext fun _ => ?_)
  refine congrArg (Process.access (.poll .line)) (funext fun cancelled => ?_)
  cases cancelled with
  | true => rfl
  | false =>
    refine congrArg (Process.access (.enter index)) (funext fun _ => ?_)
    refine congrArg (Process.bind (carryOutLine line).run) (funext fun result => ?_)
    cases result with
    | ok message => rfl
    | error c => rfl

end Snippet

namespace Engine

open Watch (Kept)

variable {m : Watch γ} {I : γ → Prop} {g : γ} {e : Engine}

theorem kept_failure {c : Cause} (action : Option String) (h : I g ∨ c = .cancelled) :
    Kept I (e.failure action c) g := by
  refine h.imp_right fun hc => ?_
  subst hc
  exact ⟨rfl, rfl⟩

theorem Kept.holds {o : Outcome} (h : Kept I o g) (ho : o.isError = false) : I g := by
  refine h.resolve_right fun hc => ?_
  rw [hc.1] at ho
  cases ho

/-! ## Steps -/

/-- Lists of steps keep the invariant, unless a step in them was cancelled. -/
def KeepsLists (m : Watch γ) (I : γ → Prop) (lists : String → Process (Except Outcome Nat)) : Prop :=
  ∀ field g, I g → (lists field).Keeps m (Attempt.Either (fun _ => I) (Kept I)) g

variable {lists : String → Process (Except Outcome Nat)}

theorem carryOut_keeps_invariant (hm : m.Maintains I) (hl : KeepsLists m I lists) (h : I g)
    {a : Action} (ha : m.AllowsCommand g a) :
    Attempt.Keeps m (Kept I) (fun c g' => I g' ∨ c = .cancelled) g (e.carryOut lists a) := by
  cases a with
  | choose condition =>
    cases condition with
    | none => exact .throw (.inl h)
    | some v =>
      refine carryOut_keeps_choose (hm.lenient g h) v fun field _ => (hl field g h).mono ?_
      intro r g' hr
      cases r with
      | ok n => exact fun o _ => .inl hr
      | error o => exact hr
  | iterate mode limit =>
    exact carryOut_keeps_iterate (I := fun _ => I) mode limit (fun _ _ => hl "loop_steps")
      (fun _ _ => hm.lenient) (fun _ _ g' hg' _ _ => .inl hg') h
  | assign | print | command | evaluate | pause | record | request | merge =>
    exact carryOut_keeps_leaf (hm.lenient g h) (fun _ _ => .inl h) lists (fun h => by cases h)
      (fun h => by cases h) ha

theorem handle_keeps_invariant (hm : m.Maintains I) (hl : KeepsLists m I lists) (h : I g)
    (d : Descriptor) (s : Step) :
    Attempt.Keeps m (Kept I) (fun c g' => I g' ∨ c = .cancelled) g (e.handle lists d s) := by
  unfold handle
  split
  · exact .pure (.inl h)
  · refine .bind (.settled (fun a ha => ?_) fun _ _ => .inl h)
    exact carryOut_keeps_invariant hm hl h (hm.commands g _ s a h ha)

theorem dispatchWith_keeps_invariant (hm : m.Maintains I) (hl : KeepsLists m I lists) (h : I g)
    (s : Step) : (e.dispatchWith lists s).Keeps m (Kept I) g := by
  obtain ⟨hp, hI⟩ := hm.polls g (.step s) h
  refine dispatchWith_keeps hp (hm.lenient _ hI).read (.inr ⟨rfl, rfl⟩) (fun _ _ => .inl hI)
    fun d s' _ => ?_
  have recorded {o : Outcome} {g' : γ} (ho : Kept I o g') : Recorded m (Kept I) d.name o g' := by
    obtain ⟨hallowed, hsame⟩ := hm.logs g' ⟨d.name, o⟩
    refine ⟨hallowed, ?_⟩
    rw [hsame]
    exact ho
  exact (handle_keeps_invariant hm hl hI d s').mono (fun _ _ => recorded)
    fun c g' hc => recorded (kept_failure _ hc)

/-- What is kept by the lists of a step is kept by the step. -/
theorem keeps_hereditary (hm : m.Maintains I) (e : Engine) :
    e.Hereditary (fun p => ∀ g, I g → p.Keeps m (Kept I) g)
      fun p => ∀ g, I g → p.Keeps m (Attempt.Either (fun _ => I) (Kept I)) g where
  step _ s hl _ h := dispatchWith_keeps_invariant hm hl h s
  nothing _ h := .inl h
  done _ _ h := h
  next p rest hp hrest g h := by
    refine .bind ((hp g h).mono fun o g' ho => ?_)
    split
    · exact ho
    · rename_i he
      exact hrest g' (Kept.holds ho (Bool.eq_false_iff.mpr he))

/-- Every step keeps the invariant, however deep its lists go, unless it is cancelled. -/
theorem dispatch_keeps_invariant (hm : m.Maintains I) (e : Engine) (s : Step) (h : I g) :
    (e.dispatch s).Keeps m (Kept I) g := (keeps_hereditary hm e).dispatch s g h

/-! ## Scripts -/

theorem carryOut_statement_keeps {E : Cause → γ → Prop} (hg : m.Lenient E g) (s : Statement) :
    Attempt.Keeps m (fun _ g' => g' = g) (fun _ g' => g' = g) g (Snippet.carryOut s) := by
  cases s with
  | print arguments =>
    refine .bind (.access_ignored hg.read fun store => ?_)
    refine .bind (.settled (fun v _ => ?_) fun _ _ => rfl)
    exact .bind (.access_ignored (hg.print _) fun _ => .pure rfl)
  | assign name expression =>
    refine .bind (.access_ignored hg.read fun store => ?_)
    refine .bind (.settled (fun v _ => ?_) fun _ _ => rfl)
    exact .bind (.access_ignored (hg.assign _ _) fun _ => .pure rfl)
  | evaluate expression =>
    refine .bind (.access_ignored hg.read fun store => ?_)
    exact .bind (.settled (fun v _ => .pure rfl) fun _ _ => rfl)

/-- Nothing in a line can be cancelled, and what a line does leaves no note. -/
theorem carryOutLine_keeps {E : Cause → γ → Prop} (hg : m.Lenient E g) (line : String) :
    (Snippet.carryOutLine line).run.Keeps m (fun _ g' => g' = g) g := by
  have h : Attempt.Keeps m (fun _ g' => g' = g) (fun _ g' => g' = g) g
      (Snippet.carryOutLine line) :=
    .bind (.settled (fun _ _ => carryOut_statement_keeps hg _) fun _ _ => rfl)
  exact Process.Keeps.mono h fun result g' hr => by
    cases result with
    | ok message => exact hr
    | error c => exact hr

theorem statementsFrom_keeps_invariant (hm : m.Maintains I)
    (hi : ∀ g index, I g → m.Ignores g (.enter index)) (config : Config)
    (lines : List (Nat × String)) (done : Nat) (h : I g) :
    (Snippet.statementsFrom config done lines).Keeps m (Attempt.Either (fun _ => I) (Kept I)) g := by
  induction lines generalizing done g with
  | nil => exact h
  | cons entry rest ih =>
    obtain ⟨index, line⟩ := entry
    have hg := hm.lenient g h
    obtain ⟨hp, hI⟩ := hm.polls g .line h
    rw [Snippet.statementsFrom_cons]
    refine ⟨hg.waits .turn rfl, fun _ => ?_⟩
    rw [hg.lasting .turn () rfl]
    refine ⟨hp, fun cancelled => ?_⟩
    cases cancelled with
    -- A cancelled line ends the snippet at once, with the invariant it began with.
    | true => exact .inr ⟨rfl, rfl⟩
    | false =>
      refine ⟨(hi _ index hI).1, fun _ => ?_⟩
      rw [(hi _ index hI).2]
      refine .bind ((carryOutLine_keeps (hm.lenient _ hI) line).mono fun result g' hg' => ?_)
      subst hg'
      refine ⟨(hm.logs _ _).1, fun _ => ?_⟩
      rw [(hm.logs _ _).2]
      split
      · exact .inl hI
      · exact ih (done + 1) hI

/-- The body of a script keeps the invariant, unless it is cancelled. -/
theorem body_keeps_invariant (hm : m.Maintains I) (hi : m.IgnoresLifecycle) (e : Engine)
    (script : Script) (h : I g) :
    (e.body script).Keeps m (Attempt.Either (fun _ => I) (Kept I)) g := by
  cases script with
  | snippet source =>
    exact statementsFrom_keeps_invariant hm (fun g _ _ => hi g _ trivial) e.config _ 0 h
  | steps ts =>
    refine stepsFrom_keeps (R := fun _ => I) hi (fun t ts g hg => ?_) h
    refine (dispatch_keeps_invariant hm e t hg).mono fun o g' ho => ?_
    unfold Ends
    split
    · exact ho
    · rename_i he
      exact Kept.holds ho (Bool.eq_false_iff.mpr he)

/-- A script keeps the invariant, unless it is cancelled. -/
theorem execute_keeps_invariant (hm : m.Maintains I) (hi : m.IgnoresLifecycle) (e : Engine)
    (run : String) (script : Script) (h : I g) :
    (e.execute run script).Keeps m (Attempt.Either (fun _ => I) (Kept I)) g :=
  execute_keeps_body hi run (body_keeps_invariant hm hi e script h) (.inl h)

end Engine

end Stepwise
