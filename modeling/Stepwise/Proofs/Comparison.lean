import Stepwise.Proofs.StepTree
import Stepwise.Proofs.Tracking

/-!
# Engines that do the same

An engine follows another one if they have the same actions, and differ in their configuration only
so that it does not matter: outcomes are related by `O`, and where the first engine cannot do what
the second one does, it fails with a cause of a kind that is fatal. Then every step and every script
does the same in both, unless the first engine ends it with a fatal failure.

* `Engine.Follows`: what the two engines must have in common.
* `Engine.Follows.dispatchWith`: a step, given that its lists do the same.
* `Engine.Follows.execute`: scripts.
* `Engine.Follows.run_execute`, `Engine.Follows.effects_execute`: runs of a script in both engines.
-/

namespace Stepwise

/-- An error of a fatal kind. -/
def Outcome.Fatal (fatal : Category → Prop) (o : Outcome) : Prop :=
  o.isError = true ∧ ∃ k, o.category = some k ∧ fatal k

namespace Engine

/-- An outcome of which `P` holds ended the execution. -/
def Stopped {α : Type} (P : Outcome → Prop) : Except Outcome α → Prop
  | .ok _ => False
  | .error o => P o

/-- The same value, or related outcomes that ended the execution. -/
inductive Concur {α : Type} (O : Outcome → Outcome → Prop) :
    Except Outcome α → Except Outcome α → Prop
  | ok (a : α) : Concur O (.ok a) (.ok a)
  | error {o o' : Outcome} : O o o' → Concur O (.error o) (.error o')

theorem Concur.eq {α : Type} {x y : Except Outcome α} (h : Concur Eq x y) : x = y := by
  cases h with
  | ok a => rfl
  | error ho => rw [ho]

/-- `e` does what `e'` does, or fails with a cause of a fatal kind. Outcomes are related by `O`. -/
structure Follows (O : Outcome → Outcome → Prop) (fatal : Category → Prop) (e e' : Engine) :
    Prop where
  registry : e.registry = e'.registry
  refl : ∀ o, O o o
  isError : ∀ {o o'}, O o o' → o.isError = o'.isError
  /-- Failures are related, whatever is written in front of their messages. -/
  failures : ∀ action message c,
    O { Outcome.failure action e.config.diagnosticLimit c with message }
      { Outcome.failure action e'.config.diagnosticLimit c with message }
  resolves : ∀ store v, Except.Narrows (fun c => fatal c.category)
    (Template.resolve store e.config.undefinedVariables v)
    (Template.resolve store e'.config.undefinedVariables v)
  commandTimeout : e.config.commandTimeout = e'.config.commandTimeout
  httpTimeout : e.config.httpTimeout = e'.config.httpTimeout
  limit : e.config.maxLoopIterations = e'.config.maxLoopIterations ∨
    e.config.maxLoopIterations ≤ e'.config.maxLoopIterations ∧ fatal .loopLimitExceeded

/-- An execution that may be stopped, and what depends on how it ended. -/
theorem tracks_bind {α β β' : Type} {O : Outcome → Outcome → Prop} {fatal : Category → Prop}
    {D : β → Prop} {R : β → β' → Prop} {x x' : Attempt (Except Outcome α)}
    {k : Except Outcome α → Attempt β} {k' : Except Outcome α → Attempt β'}
    (hx : Attempt.Tracks O fatal (Stopped (·.Fatal fatal)) (Concur O) x x')
    (hok : ∀ a, Attempt.Tracks O fatal D R (k (.ok a)) (k' (.ok a)))
    (herror : ∀ o o', O o o' → Attempt.Tracks O fatal D R (k (.error o)) (k' (.error o')))
    (hfatal : ∀ o, o.Fatal fatal → (k (.error o)).run.Doomed (Attempt.Lost fatal D)) :
    Attempt.Tracks O fatal D R (x >>= k) (x' >>= k') := by
  refine .bind hx (fun r r' hr => ?_) fun r hr => ?_
  · cases hr with
    | ok a => exact hok a
    | error ho => exact herror _ _ ho
  · cases r with
    | ok a => exact hr.elim
    | error o => exact hfatal o hr

namespace Follows

variable {O : Outcome → Outcome → Prop} {fatal : Category → Prop} {e e' : Engine}
  (h : e.Follows O fatal e')

include h

theorem failure (action : Option String) (c : Cause) :
    O (e.failure action c) (e'.failure action c) := h.failures action c.message c

omit h in
theorem fatal_failure (e : Engine) (action : Option String) {c : Cause} (hc : fatal c.category) :
    (e.failure action c).Fatal fatal := ⟨rfl, c.category, rfl, hc⟩

/-! ## Preparation -/

theorem fieldsRead (d : Descriptor) (store : Store) (fields : Entries Value) :
    Except.Narrows (fun c => fatal c.category) (e.fieldsRead d store fields)
      (e'.fieldsRead d store fields) := by
  have hfilled (field : String) (v : Value) : Except.Narrows (fun c => fatal c.category)
      (e.filled d store field v) (e'.filled d store field v) := by
    unfold Engine.filled
    split
    · exact .refl _
    · exact h.resolves store v
  induction fields with
  | nil => exact .refl _
  | cons entry rest ih =>
    rw [Engine.fieldsRead, Engine.fieldsRead]
    split
    · exact .bind (hfilled _ _) fun v => .bind ih fun rest => .refl _
    · exact ih

theorem ready (d : Descriptor) (store : Store) (s : Step) :
    Except.Narrows (fun c => fatal c.category) (e.ready d store s) (e'.ready d store s) :=
  .bind (h.fieldsRead d store s.fields) fun _ => .refl _

theorem actionOf (s : Step) : e.actionOf s = e'.actionOf s := by
  unfold Engine.actionOf
  rw [h.registry]

theorem prepare (s : Step) :
    Attempt.Tracks O fatal (fun _ => False) Eq (e.prepare s) (e'.prepare s) := by
  unfold Engine.prepare
  refine .refl_bind _ fun cancelled => ?_
  cases cancelled with
  | true => exact .throw_bind .cancelled
  | false =>
    refine .settled_bind (.inl (h.actionOf s)) fun d => .refl_bind _ fun store => ?_
    exact .settled_bind (h.ready d store s) fun s' => .refl (fun _ => rfl) _

/-! ## Actions -/

variable {lists lists' : String → Process (Except Outcome Nat)}

/-- An action without lists of steps does not look at anything in which the engines differ. -/
theorem carryOut_leaf {a : Action} (hc : a.kind ≠ .condition) (hl : a.kind ≠ .loop) :
    e.carryOut lists a = e'.carryOut lists' a := by
  cases a with
  | command spec shell timeout =>
    show e.carryOutCommand spec shell timeout = e'.carryOutCommand spec shell timeout
    unfold carryOutCommand
    rw [h.commandTimeout]
  | request r =>
    show e.carryOutRequest r = e'.carryOutRequest r
    unfold carryOutRequest
    rw [h.httpTimeout]
    refine congrArg (ite _ _) (congrArg (ite _ _) (congrArg (Bind.bind _) (funext fun x => ?_)))
    cases x <;> rfl
  | choose condition => exact absurd rfl hc
  | iterate mode limit => exact absurd rfl hl
  | assign | print | evaluate | pause | record | merge => rfl

theorem choose (hl : ∀ field, (lists field).Tracks O (Stopped (·.Fatal fatal)) (Concur O)
      (lists' field)) (condition : Option Value) :
    Attempt.Tracks O fatal (·.Fatal fatal) O (e.carryOut lists (.choose condition))
      (e'.carryOut lists' (.choose condition)) := by
  cases condition with
  | none => exact .refl h.refl _
  | some v =>
    refine .refl_bind _ fun store => .refl_bind _ fun holds => ?_
    exact tracks_bind (.lift (hl _)) (fun _ => .pure (h.refl _)) (fun _ _ ho => .pure ho)
      fun _ ho => ho

theorem mayPass (mode : LoopMode) (done : Nat) :
    Attempt.Tracks O fatal (fun _ => False) Eq (e.mayPass mode done) (e'.mayPass mode done) := by
  have hpass : Attempt.Tracks O fatal (fun _ => False) Eq (e.anotherPass mode done)
      (e'.anotherPass mode done) := by
    cases mode with
    | counted count => exact .refl (fun _ => rfl) _
    | holding condition =>
      refine .refl_bind _ fun store => .settled_bind (h.resolves store condition) fun v => ?_
      exact .refl (fun _ => rfl) _
  unfold Engine.mayPass
  refine .refl_bind _ fun cancelled => ?_
  cases cancelled with
  | true => exact .throw_bind .cancelled
  | false => exact hpass

/-- Loops make the same passes. A loop that may make fewer of them fails when it has made them. -/
theorem passes (mode : LoopMode) {body body' : Process (Except Outcome Nat)}
    (hbody : body.Tracks O (Stopped (·.Fatal fatal)) (Concur O) body') {limit limit' : Nat}
    {left left' : Nat} (hleft : limit = limit' ∧ left = left' ∨
      left ≤ left' ∧ fatal .loopLimitExceeded) (done : Nat) :
    Attempt.Tracks O fatal (Stopped (·.Fatal fatal)) (Concur O)
      (e.passes mode limit body done left) (e'.passes mode limit' body' done left') := by
  induction left generalizing done left' with
  | zero =>
    -- No pass is left to the first loop; if it is asked for one, it fails.
    have hthrow {x : Attempt (Except Outcome Nat)} (hf : fatal .loopLimitExceeded) :
        Attempt.Tracks O fatal (Stopped (·.Fatal fatal)) (Concur O)
          (throw (Cause.loopLimitExceeded limit)) x := .doomed hf
    rw [passes_zero]
    cases left' with
    | zero =>
      rw [passes_zero]
      refine .bind (h.mayPass mode done) (fun b b' hb => ?_) fun _ hb => hb.elim
      subst hb
      cases b with
      | true =>
        rcases hleft with ⟨rfl, -⟩ | ⟨-, hf⟩
        · exact .refl (fun r => by cases r <;> constructor; exact h.refl _) _
        · exact hthrow hf
      | false => exact .pure (.ok done)
    | succ left' =>
      -- Only a fatal limit lets the second loop have passes left when the first has none.
      have hf : fatal .loopLimitExceeded := by
        rcases hleft with ⟨-, h⟩ | ⟨-, hf⟩
        · cases h
        · exact hf
      rw [passes_succ]
      refine .bind (h.mayPass mode done) (fun b b' hb => ?_) fun _ hb => hb.elim
      subst hb
      cases b with
      | true => exact hthrow hf
      | false => exact .pure (.ok done)
  | succ left ih =>
    -- Both have a pass left, and the same test says whether they make it.
    obtain ⟨left', rfl⟩ : ∃ n, left' = n + 1 := ⟨left' - 1, by omega⟩
    rw [passes_succ, passes_succ]
    refine .bind (h.mayPass mode done) (fun b b' hb => ?_) fun _ hb => hb.elim
    subst hb
    cases b with
    | true =>
      refine .refl_bind _ fun _ => tracks_bind (.lift hbody) (fun n => ?_)
        (fun o o' ho => .pure (.error ho)) fun o ho => ho
      exact ih (hleft.imp (fun h => ⟨h.1, by omega⟩) fun h => ⟨by omega, h.2⟩) (done + 1)
    | false => exact .pure (.ok done)

theorem iterate (hl : ∀ field, (lists field).Tracks O (Stopped (·.Fatal fatal)) (Concur O)
      (lists' field)) (mode : LoopMode) (limit : Option Nat) :
    Attempt.Tracks O fatal (·.Fatal fatal) O (e.carryOut lists (.iterate mode limit))
      (e'.carryOut lists' (.iterate mode limit)) := by
  have hleft : limit.getD e.config.maxLoopIterations = limit.getD e'.config.maxLoopIterations ∧
      limit.getD e.config.maxLoopIterations = limit.getD e'.config.maxLoopIterations ∨
      limit.getD e.config.maxLoopIterations ≤ limit.getD e'.config.maxLoopIterations ∧
        fatal .loopLimitExceeded := by
    cases limit with
    | some n => exact .inl ⟨rfl, rfl⟩
    | none => exact h.limit.imp_left fun hlimit => ⟨hlimit, hlimit⟩
  exact tracks_bind (h.passes mode (hl "loop_steps") hleft 0) (fun _ => .pure (h.refl _))
    (fun _ _ ho => .pure ho) fun _ ho => ho

/-- Actions do the same, if the lists of their steps do. -/
theorem carryOut (hl : ∀ field, (lists field).Tracks O (Stopped (·.Fatal fatal)) (Concur O)
      (lists' field)) (a : Action) :
    Attempt.Tracks O fatal (·.Fatal fatal) O (e.carryOut lists a) (e'.carryOut lists' a) := by
  cases a with
  | choose condition => exact h.choose hl condition
  | iterate mode limit => exact h.iterate hl mode limit
  | assign | print | command | evaluate | pause | record | request | merge =>
    rw [h.carryOut_leaf (fun h => by cases h) fun h => by cases h]
    exact .refl h.refl _

theorem handle (hl : ∀ field, (lists field).Tracks O (Stopped (·.Fatal fatal)) (Concur O)
      (lists' field)) (d : Descriptor) (s : Step) :
    Attempt.Tracks O fatal (·.Fatal fatal) O (e.handle lists d s) (e'.handle lists' d s) := by
  unfold Engine.handle
  split
  · exact .pure (h.refl _)
  · exact .refl_bind _ fun a => h.carryOut hl a

/-! ## Steps -/

theorem dispatchWith (hl : ∀ field, (lists field).Tracks O (Stopped (·.Fatal fatal)) (Concur O)
      (lists' field)) (s : Step) :
    (e.dispatchWith lists s).Tracks O (·.Fatal fatal) O (e'.dispatchWith lists' s) := by
  unfold Engine.dispatchWith
  refine .bind (h.prepare s) (fun r r' hr => ?_) fun r hr => ?_
  · cases hr with
    | error c => exact .done (h.failure _ c)
    | @ok p _ hp =>
      subst hp
      refine .bind (h.handle hl p.1 p.2) (fun r r' hr => ?_) fun r hr => ?_
      · cases hr with
        | ok ho => exact .log ho (.done ho)
        | error c => exact .log (h.failure _ c) (.done (h.failure _ c))
      · cases r with
        | ok o => exact ⟨rfl, fun _ => hr⟩
        | error c => exact ⟨rfl, fun _ => fatal_failure e _ hr⟩
  · cases r with
    | ok p => exact hr.elim
    | error c => exact fatal_failure e _ hr

omit h

mutual

theorem dispatchValue (h : e.Follows O fatal e') : ∀ v : Value,
    (e.dispatchValue v).Tracks O (·.Fatal fatal) O (e'.dispatchValue v)
  | .dict fields => by
    rw [Engine.dispatchValue, Engine.dispatchValue]
    exact h.dispatchWith (runField h fields) ⟨fields⟩
  | .null | .bool _ | .int _ | .float _ | .str _ | .list _ => .done (h.refl _)
termination_by structural v => v

theorem runField (h : e.Follows O fatal e') : ∀ (fields : List (String × Value)) (field : String),
    (e.runField fields field).Tracks O (Stopped (·.Fatal fatal)) (Concur O)
      (e'.runField fields field)
  | [], _ => .done (.ok 0)
  | (name, v) :: rest, field => by
    rw [Engine.runField, Engine.runField]
    split
    · exact runList h v
    · exact runField h rest field
termination_by structural fields => fields

theorem runList (h : e.Follows O fatal e') : ∀ v : Value,
    (e.runList v).Tracks O (Stopped (·.Fatal fatal)) (Concur O) (e'.runList v)
  | .list items => runItems h items 0
  | .null | .bool _ | .int _ | .float _ | .str _ | .dict _ => .done (.ok 0)
termination_by structural v => v

theorem runItems (h : e.Follows O fatal e') : ∀ (items : List Value) (count : Nat),
    (e.runItems count items).Tracks O (Stopped (·.Fatal fatal)) (Concur O)
      (e'.runItems count items)
  | [], count => .done (.ok count)
  | v :: vs, count => by
    rw [Engine.runItems, Engine.runItems]
    refine .bind (dispatchValue h v) (fun o o' ho => ?_) fun o ho => ?_
    · rw [h.isError ho]
      split
      · exact .done (.error ho)
      · exact runItems h vs (count + 1)
    · rw [if_pos ho.1]
      exact ho
termination_by structural items => items

end

include h

theorem dispatch (s : Step) : (e.dispatch s).Tracks O (·.Fatal fatal) O (e'.dispatch s) :=
  h.dispatchValue s.toValue

/-! ## Scripts -/

theorem stepsFrom (ts : List Step) (index : Nat) :
    (e.stepsFrom index ts).Tracks O (Stopped (·.Fatal fatal)) (Concur O)
      (e'.stepsFrom index ts) := by
  induction ts generalizing index with
  | nil => exact .done (.ok _)
  | cons s rest ih =>
    rw [Engine.stepsFrom, Engine.stepsFrom]
    refine .ofAccess_bind fun _ => .bind (h.dispatch s) (fun o o' ho => ?_) fun o ho => ?_
    · rw [h.isError ho]
      split
      · exact .done (.error ho)
      · exact ih (index + 1)
    · rw [if_pos ho.1]
      exact ho

/-- Lines do not depend on the engine but in what they note of a failure. -/
theorem statementsFrom (lines : List (Nat × String)) (done : Nat) :
    (Snippet.statementsFrom e.config done lines).Tracks O (Stopped (·.Fatal fatal)) (Concur O)
      (Snippet.statementsFrom e'.config done lines) := by
  induction lines generalizing done with
  | nil => exact .done (.ok _)
  | cons entry rest ih =>
    obtain ⟨index, line⟩ := entry
    have hfailure (c : Cause) :
        O (Snippet.failure e.config index c) (Snippet.failure e'.config index c) :=
      h.failures _ _ c
    rw [Snippet.statementsFrom_cons, Snippet.statementsFrom_cons]
    refine .wait fun _ => .access fun cancelled => ?_
    -- Both see the same answer here, since they have made the same moves so far.
    cases cancelled with
    | true => exact .done (.error (hfailure .cancelled))
    | false =>
      refine .access fun _ => .bind (D := fun _ => False) (.refl (fun _ => rfl) _)
        (fun r r' hr => ?_) fun _ hr => hr.elim
      subst hr
      have ho : O (Snippet.outcome e.config index r) (Snippet.outcome e'.config index r) := by
        cases r with
        | ok message => exact h.refl _
        | error c => exact hfailure c
      refine .log ho ?_
      rw [h.isError ho]
      split
      · exact .done (.error ho)
      · exact ih (done + 1)

theorem body (script : Script) :
    (e.body script).Tracks O (Stopped (·.Fatal fatal)) (Concur O) (e'.body script) := by
  cases script with
  | steps ts => exact h.stepsFrom ts 0
  | snippet source => exact h.statementsFrom _ 0

/-- A script does the same in both engines, unless the first one ends it with a fatal failure. -/
theorem execute (run : String) (script : Script) :
    (e.execute run script).Tracks O (Stopped (·.Fatal fatal)) (Concur O)
      (e'.execute run script) := by
  unfold Engine.execute
  refine .ofAccess_bind fun launched => ?_
  cases launched with
  | true => exact .done (.error (h.refl _))
  | false =>
    refine .ofAccess_bind fun _ => .ofAccess_bind fun _ => .bind (h.body script)
      (fun r r' hr => ?_) fun r hr => ?_
    · cases hr with
      | ok message => exact .access fun _ => .done (.ok message)
      | error ho => exact .blame ho (.access fun _ => .done (.error ho))
    · cases r with
      | ok message => exact hr.elim
      | error o => exact ⟨rfl, fun _ => ⟨rfl, fun _ => hr⟩⟩

end Follows

/-! ## Runs -/

section Runs

variable {τ : Type} {fatal : Category → Prop} {e e' : Engine} (h : e.Follows Eq fatal e')
include h

/-- A script that the first engine does not end with a fatal failure leaves the same run in both,
and the same world, and comes to the same. -/
theorem Follows.run_execute (world : World τ) (run : String) (script : Script) (r : Run) (t : τ)
    (hfatal : ∀ o, ((e.execute run script).run world r t).1 = .error o → ¬o.Fatal fatal) :
    (e'.execute run script).run world r t = (e.execute run script).run world r t := by
  rcases (h.execute run script).run world.simulates_self ⟨rfl, rfl⟩ with
    hstopped | ⟨hresult, ⟨hrun, hworld⟩, -⟩
  · generalize ((e.execute run script).run world r t).1 = result at hfatal hstopped
    cases result with
    | ok message => exact hstopped.elim
    | error o => exact absurd hstopped (hfatal o rfl)
  · exact Prod.ext hresult.eq.symm (Prod.ext hrun.symm hworld.symm)

/-- The effects in the first engine are the beginning of those in the other one. -/
theorem Follows.effects_execute (world : World τ) (run : String) (script : Script) (r : Run)
    (t : τ) :
    (e.execute run script).effects world r t <+: (e'.execute run script).effects world r t :=
  (h.execute run script).effects world.simulates_self ⟨rfl, rfl⟩

end Runs

end Engine

end Stepwise
