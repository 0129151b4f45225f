import Stepwise.Proofs.Ownership

/-!
# Watches that mind a single action

A watch may be after what the steps of a single action do, a command that is begun or a trigger that
is recorded, and let everything else pass. What is shown of those steps then holds of every script:
other actions do nothing the watch minds, but for the steps in their lists.

* `Process.Abides`, `Attempt.Abides`: processes that bring the note from an invariant back to it,
  with a rule for each way to build one.
* `Engine.Minds`: what a watch lets pass that minds a single action.
* `Engine.carryOut_abides`: the other actions.
* `Engine.dispatch_abides`: by induction over the tree of steps.
* `Engine.execute_abides`: the steps and the lines of a script.
-/

namespace Stepwise

variable {α β γ : Type} {m : Watch γ} {I : γ → Prop}

/-- The access neither records a trigger nor writes to the history. -/
def Run.Access.isPlain : Run.Access → Bool
  | .record _ | .log _ => false
  | _ => true

namespace Watch

/-- The access may be made, and leaves the invariant as it is. -/
def Passes (m : Watch γ) (I : γ → Prop) (c : Run.Access) : Prop :=
  ∀ g, I g → m.allows g c ∧ ∀ x, I (m.answered g c x)

/-- The wait may be begun, and leaves the invariant as it is. -/
def PassesWait (m : Watch γ) (I : γ → Prop) (w : Wait) : Prop :=
  ∀ g, I g → m.allowsWait g w ∧ ∀ x, I (m.awaited g w x)

end Watch

namespace Process

/-- The process makes only moves that are allowed, and in the end the invariant holds again. -/
def Abides (m : Watch γ) (I : γ → Prop) (p : Process α) : Prop :=
  ∀ g, I g → p.Keeps m (fun _ => I) g

namespace Abides

theorem done (a : α) : (Process.done a).Abides m I := fun _ h => h

theorem bind {p : Process α} {f : α → Process β} (hp : p.Abides m I)
    (hf : ∀ a, (f a).Abides m I) : (p.bind f).Abides m I :=
  fun g h => .bind ((hp g h).mono fun a later hlater => hf a later hlater)

theorem access {c : Run.Access} {next : c.Answer → Process α} (hc : m.Passes I c)
    (hn : ∀ x, (next x).Abides m I) : (Process.access c next).Abides m I :=
  fun g h => ⟨(hc g h).1, fun x => hn x _ ((hc g h).2 x)⟩

theorem ofAccess {c : Run.Access} (hc : m.Passes I c) : (Process.ofAccess c).Abides m I :=
  access hc fun _ => done _

theorem wait {w : Wait} {next : w.Answer → Process α} (hw : m.PassesWait I w)
    (hn : ∀ x, (next x).Abides m I) : (Process.wait w next).Abides m I :=
  fun g h => ⟨(hw g h).1, fun x => hn x _ ((hw g h).2 x)⟩

end Abides

end Process

namespace Attempt

/-- `Process.Abides` of an attempt. -/
def Abides (m : Watch γ) (I : γ → Prop) (x : Attempt α) : Prop := x.run.Abides m I

namespace Abides

theorem pure (a : α) : Abides m I (Pure.pure a : Attempt α) := .done _

theorem throw (c : Cause) : Abides m I (MonadExcept.throw c : Attempt α) := .done _

theorem settled (x : Except Cause α) : Abides m I (settled x) := .done _

theorem bind {x : Attempt α} {f : α → Attempt β} (hx : Abides m I x)
    (hf : ∀ a, Abides m I (f a)) : Abides m I (x >>= f) :=
  Process.Abides.bind hx fun
    | .ok a => hf a
    | .error _ => .done _

theorem lift {p : Process α} (hp : p.Abides m I) : Abides m I (ExceptT.lift p) :=
  Process.Abides.bind hp fun _ => .done _

theorem access {c : Run.Access} (hc : m.Passes I c) : Abides m I (access c) := lift (.ofAccess hc)

theorem wait {w : Wait} (hw : m.PassesWait I w) : Abides m I (wait w) :=
  lift (.wait hw fun _ => .done _)

end Abides

end Attempt

namespace Engine

open Attempt (Abides settled)

variable {e : Engine} {d : Descriptor} {k : Action.Kind} {s s' : Step} {store : Store}
  {lists : String → Process (Except Outcome Nat)}

/-- While the invariant holds, the watch lets everything pass but what the steps of this action
do. -/
structure Minds (e : Engine) (m : Watch γ) (I : γ → Prop) (k : Action.Kind) : Prop where
  plain : ∀ c : Run.Access, c.isPlain = true → m.Passes I c
  waits : ∀ w : Wait, w.isCommand = false → m.PassesWait I w
  records : k ≠ .trigger → ∀ t, m.Passes I (.record t)
  commands : k ≠ .executeCommand → ∀ command seconds, m.PassesWait I (.execute command seconds)
  /-- The steps of the other actions write their entries. -/
  steps : ∀ s d, e.actionOf s = .ok d → d.handler ≠ .builtin k → ∀ o, m.Passes I (.log ⟨d.name, o⟩)
  /-- The lines of snippets write theirs. -/
  lines : ∀ o, m.Passes I (.log ⟨Snippet.actionName, o⟩)

/-! ## The other actions -/

section Actions

variable (hm : e.Minds m I k)

include hm

theorem valueOf_abides (v : Value) (evaluated : Bool) : Abides m I (valueOf v evaluated) := by
  unfold valueOf
  split
  · exact .bind (.access (hm.plain _ rfl)) fun _ => .settled _
  · exact .pure _

theorem report_abides (code : Option Nat) (out err : List UInt8) :
    Abides m I (report code out err) := by
  unfold report
  refine .bind (.access (hm.plain _ rfl)) fun _ => .bind (.access (hm.plain _ rfl)) fun _ => ?_
  refine .bind (.access (hm.plain _ rfl)) fun _ => .bind (.access (hm.plain _ rfl)) fun _ => ?_
  exact .bind (.access (hm.plain _ rfl)) fun _ => .pure _

/-- A command that may be begun is the only thing a step does for it that the watch may mind. -/
theorem carryOutCommand_keeps_invariant {spec : Command.Spec} {shell : Bool} {g : γ}
    (timeout : Option Float)
    (hw : ∀ command seconds, spec.invocation shell = .ok command →
      m.allowsWait g (.execute command seconds) ∧
        ∀ x, I (m.awaited g (.execute command seconds) x))
    (h : I g) : (e.carryOutCommand spec shell timeout).run.Keeps m (fun _ => I) g := by
  unfold carryOutCommand
  dsimp only
  split
  · exact h
  · rename_i command hcommand
    obtain ⟨hallowed, hafter⟩ := hw command _ hcommand
    refine ⟨hallowed, fun x => ?_⟩
    cases x with
    | ended code out err => exact report_abides hm code out err _ (hafter _)
    | unstarted | timedOut | interrupted => exact hafter _

theorem store_abides (q : Http.Request) (x : Http.Response) :
    Abides m I (Engine.store q x) := by
  have hend (s : String) : Abides m I (do
      Attempt.access (.assign "status" (.int x.status))
      Attempt.access (.assign "response_headers" (Http.headersValue x.headers))
      return Outcome.success Action.Kind.httpRequest.name s) :=
    .bind (.access (hm.plain _ rfl)) fun _ => .bind (.access (hm.plain _ rfl)) fun _ => .pure _
  unfold Engine.store
  refine .bind (.settled _) fun body => .bind (.access (hm.plain _ rfl)) fun _ => ?_
  dsimp only
  split
  · exact .bind (.access (hm.plain _ rfl)) fun _ => hend _
  · exact hend _

theorem carryOutRequest_abides (q : Http.Request) : Abides m I (e.carryOutRequest q) := by
  unfold carryOutRequest
  split
  · exact .settled _
  · split
    · exact .throw _
    · refine .bind (.wait (hm.waits _ rfl)) fun x => ?_
      cases x with
      | answered x => exact store_abides hm q x
      | failed | interrupted => exact .throw _

theorem mayPass_abides (mode : LoopMode) (done : Nat) : Abides m I (e.mayPass mode done) := by
  have hpass : Abides m I (e.anotherPass mode done) := by
    cases mode with
    | counted count => exact .pure _
    | holding condition =>
      refine .bind (.access (hm.plain _ rfl)) fun _ => .bind (.settled _) fun _ => ?_
      exact .bind (.access (hm.plain _ rfl)) fun _ => .settled _
  refine .bind (.access (hm.plain _ rfl)) fun cancelled => ?_
  cases cancelled with
  | true => exact .bind (.throw _) fun _ => hpass
  | false => exact hpass

theorem passes_abides {body : Process (Except Outcome Nat)} (hbody : body.Abides m I)
    (mode : LoopMode) (limit done left : Nat) :
    Abides m I (e.passes mode limit body done left) := by
  have hbegin (done : Nat) : Abides m I (beginPass mode done) := by
    cases mode with
    | counted count => exact .access (hm.plain _ rfl)
    | holding condition => exact .pure _
  induction left generalizing done with
  | zero =>
    rw [passes_zero]
    refine .bind (mayPass_abides hm mode done) fun b => ?_
    cases b with
    | true => exact .throw _
    | false => exact .pure _
  | succ left ih =>
    rw [passes_succ]
    refine .bind (mayPass_abides hm mode done) fun b => ?_
    cases b with
    | true =>
      refine .bind (hbegin done) fun _ => .bind (.lift hbody) fun result => ?_
      cases result with
      | ok n => exact ih (done + 1)
      | error o => exact .pure _
    | false => exact .pure _

/-- Another action does nothing itself that the watch minds. -/
theorem carryOut_abides {a : Action} (ha : a.kind ≠ k)
    (hc : ∀ v, a = .choose v → ∀ field ∈ ["if_true", "if_false"], (lists field).Abides m I)
    (hl : ∀ mode limit, a = .iterate mode limit → (lists "loop_steps").Abides m I) :
    Abides m I (e.carryOut lists a) := by
  -- The watch may mind that a command begins or a trigger is recorded, and lets all else pass.
  cases a with
  | assign name v evaluated =>
    refine .bind (valueOf_abides hm v evaluated) fun _ => ?_
    exact .bind (.access (hm.plain _ rfl)) fun _ => .pure _
  | print message evaluated =>
    refine .bind (valueOf_abides hm message evaluated) fun _ => ?_
    exact .bind (.access (hm.plain _ rfl)) fun _ => .pure _
  | command spec shell timeout =>
    intro g h
    have hcommand := hm.commands (Ne.symm ha)
    exact carryOutCommand_keeps_invariant hm timeout (fun _ _ _ => hcommand _ _ g h) h
  | evaluate expression => exact .bind (valueOf_abides hm _ true) fun _ => .pure _
  | choose condition =>
    cases condition with
    | none => exact .throw _
    | some v =>
      refine .bind (.access (hm.plain _ rfl)) fun _ => .bind (.settled _) fun holds => ?_
      have hfield : (if holds then "if_true" else "if_false") ∈ ["if_true", "if_false"] := by
        cases holds <;> decide
      exact .bind (.lift (hc _ rfl _ hfield)) fun
        | .error _ => .pure _
        | .ok _ => .pure _
  | iterate mode limit =>
    exact .bind (passes_abides hm (hl _ _ rfl) mode _ 0 _) fun
      | .error _ => .pure _
      | .ok _ => .pure _
  | pause seconds evaluated =>
    refine .bind (valueOf_abides hm seconds evaluated) fun _ => .bind (.settled _) fun _ => ?_
    refine .bind (.wait (hm.waits _ rfl)) fun lasted => ?_
    cases lasted with
    | true => exact .pure _
    | false => exact .throw _
  | record trigger message =>
    exact .bind (.access (hm.records (Ne.symm ha) trigger)) fun _ => .pure _
  | request q => exact carryOutRequest_abides hm q
  | merge sources target =>
    refine .bind (.access (hm.plain _ rfl)) fun _ => .bind (.settled _) fun _ => ?_
    exact .bind (.access (hm.plain _ rfl)) fun _ => .pure _

/-! ## Steps and scripts -/

omit hm in
theorem runItems_abides {ts : List Step} (h : ∀ t ∈ ts, (e.dispatch t).Abides m I) (count : Nat) :
    (e.runItems count (ts.map Step.toValue)).Abides m I := by
  induction ts generalizing count with
  | nil => exact .done _
  | cons t ts ih =>
    obtain ⟨ht, hts⟩ := List.forall_mem_cons.mp h
    refine .bind ht fun o => ?_
    split
    · exact .done _
    · exact ih hts (count + 1)

/-- What a step of another action does that the watch minds is done by the steps in its lists. -/
theorem handle_abides (he : e.registry.Genuine) (hd : e.actionOf s = .ok d)
    (hk : d.handler ≠ .builtin k) (hready : e.ready d store s = .ok s')
    (hchildren : ∀ t, t.Child s → (e.dispatch t).Abides m I) :
    Abides m I (e.handle (e.runField s.fields) d s') := by
  cases hhandler : d.handler with
  | recorder =>
    rw [handle, hhandler]
    exact .pure _
  | builtin kind =>
    obtain rfl := eq_ofKind_of_actionOf he hd hhandler
    obtain ⟨hhanded, -⟩ := ready_eq_ok.mp hready
    -- A list that is run is raw, so the steps in it are those that were written.
    have hfield {field : String} {ts : List Step} (hr : field ∈ kind.raw)
        (hts : s'.children? field = some (.ok ts)) :
        (e.runField s.fields field).Abides m I := by
      obtain ⟨hname, hdeclared⟩ := kind.declares_of_raw field hr
      rw [hhanded.children?_raw hname hdeclared (List.contains_iff_mem.mpr hr)] at hts
      rw [runField_children hts]
      exact runItems_abides (fun t ht => hchildren t ⟨field, ts, hts, ht⟩) 0
    show Abides m I (settled (Action.read kind s') >>= e.carryOut _)
    cases hread : Action.read kind s' with
    | error c => exact .throw c
    | ok a =>
      have ha := Action.read_kind kind s' a hread
      have hne : a.kind ≠ k := fun h => hk (congrArg Handler.builtin (ha.symm.trans h))
      refine carryOut_abides hm hne (fun v hv field hf => ?_) fun mode limit hv => ?_
      · subst hv
        obtain rfl := ha
        obtain ⟨ts, hts⟩ := (Action.read_condition hread).2 field hf
        exact hfield hf hts
      · subst hv
        obtain rfl := ha
        obtain ⟨-, -, -, -, -, ts, hts⟩ := Action.read_loop hread
        exact hfield (show "loop_steps" ∈ Action.Kind.raw .loop by decide) hts

omit hm in
/-- A step asks whether the run has been cancelled, looks at the variables if its action is known,
and if it is made ready has its action carried out and the outcome written to the history. -/
theorem dispatch_eq_ready (e : Engine) (s : Step) :
    e.dispatch s = .access (.poll (.step s)) fun cancelled =>
      if cancelled then .done (e.failure s.action? .cancelled) else
        match e.actionOf s with
        | .error c => .done (e.failure s.action? c)
        | .ok d => .access .read fun store =>
          match e.ready d store s with
          | .error c => .done (e.failure s.action? c)
          | .ok s' => (e.handle (e.runField s.fields) d s').run.bind fun result =>
            .access (.log ⟨d.name, e.closing d.name result⟩) fun _ =>
              .done (e.closing d.name result) := by
  rw [dispatch_eq_closing]
  refine congrArg (Process.access (.poll (.step s))) (funext fun cancelled => ?_)
  cases cancelled with
  | true => rfl
  | false =>
    show Process.bind _ _ = if false then _ else _
    cases e.actionOf s with
    | error c => rfl
    | ok d =>
      refine congrArg (Process.access .read) (funext fun store => ?_)
      show (settled (e.ready d store s) >>= fun s' => pure (d, s') : Attempt _).run.bind _ = _
      cases e.ready d store s with
      | error c => rfl
      | ok s' => rfl

/-- If the steps of the action that is minded do as they should, then so does every step. -/
theorem dispatch_abides (he : e.registry.Genuine)
    (hown : ∀ t, t.Within s → e.actionOf t = .ok (.ofKind k) → (e.dispatch t).Abides m I) :
    (e.dispatch s).Abides m I := by
  induction s using Step.induct with
  | step s ih =>
    have hchildren : ∀ t, t.Child s → (e.dispatch t).Abides m I :=
      fun t ht => ih t ht fun u hu => hown u (hu.child ht)
    by_cases hs : e.actionOf s = .ok (.ofKind k)
    · exact hown s .refl hs
    · rw [dispatch_eq_ready]
      refine .access (hm.plain _ rfl) fun cancelled => ?_
      split
      · exact .done _
      · split
        · exact .done _
        · rename_i d hd
          have hk : d.handler ≠ .builtin k := fun h => hs (eq_ofKind_of_actionOf he hd h ▸ hd)
          refine .access (hm.plain _ rfl) fun store => ?_
          split
          · exact .done _
          · rename_i s' hready
            refine .bind (handle_abides hm he hd hk hready hchildren) fun result => ?_
            exact .access (hm.steps s d hd hk _) fun _ => .done _

theorem carryOutLine_abides (line : String) : Abides m I (Snippet.carryOutLine line) := by
  refine .bind (.settled _) fun _ => ?_
  cases Statement.ofLine line.toList with
  | print | assign =>
    refine .bind (.access (hm.plain _ rfl)) fun _ => .bind (.settled _) fun _ => ?_
    exact .bind (.access (hm.plain _ rfl)) fun _ => .pure _
  | evaluate =>
    exact .bind (.access (hm.plain _ rfl)) fun _ => .bind (.settled _) fun _ => .pure _

theorem statementsFrom_abides (config : Config) (lines : List (Nat × String)) (done : Nat) :
    (Snippet.statementsFrom config done lines).Abides m I := by
  induction lines generalizing done with
  | nil => exact .done _
  | cons entry rest ih =>
    obtain ⟨index, line⟩ := entry
    rw [Snippet.statementsFrom_cons]
    refine .wait (hm.waits _ rfl) fun _ => .access (hm.plain _ rfl) fun cancelled => ?_
    split
    · exact .done _
    · refine .access (hm.plain _ rfl) fun _ => ?_
      refine .bind (carryOutLine_abides hm line) fun result => .access (hm.lines _) fun _ => ?_
      split
      · exact .done _
      · exact ih (done + 1)

theorem stepsFrom_abides {ts : List Step} (h : ∀ t ∈ ts, (e.dispatch t).Abides m I)
    (index : Nat) : (e.stepsFrom index ts).Abides m I := by
  induction ts generalizing index with
  | nil => exact .done _
  | cons t ts ih =>
    obtain ⟨ht, hts⟩ := List.forall_mem_cons.mp h
    refine .bind (.ofAccess (hm.plain _ rfl)) fun _ => .bind ht fun o => ?_
    split
    · exact .done _
    · exact ih hts (index + 1)

end Actions

end Engine

/-- The step stands somewhere in the script. -/
def Script.Has : Script → Step → Prop
  | .steps ts, s => ∃ t ∈ ts, s.Within t
  | .snippet _, _ => False

/-- If the steps of the action that is minded do as they should, then so does every execution. -/
theorem Engine.execute_abides {e : Engine} {k : Action.Kind} (hm : e.Minds m I k)
    (he : e.registry.Genuine) (run : String) {script : Script}
    (hown : ∀ s, script.Has s → e.actionOf s = .ok (.ofKind k) → (e.dispatch s).Abides m I) :
    (e.execute run script).Abides m I := by
  have hbody : (e.body script).Abides m I := by
    cases script with
    | snippet source => exact statementsFrom_abides hm _ _ 0
    | steps ts =>
      refine stepsFrom_abides hm (fun t ht => ?_) 0
      exact dispatch_abides hm he fun u hu => hown u ⟨t, ht, hu⟩
  have hplain {c : Run.Access} (hc : c.isPlain = true) : (Process.ofAccess c).Abides m I :=
    .ofAccess (hm.plain c hc)
  refine .bind (hplain rfl) fun launched => ?_
  split
  · exact .done _
  · refine .bind (hplain rfl) fun _ => .bind (hplain rfl) fun _ => ?_
    refine .bind hbody fun result => .bind ?_ fun _ => .done _
    cases result with
    | ok message => exact hplain rfl
    | error o => exact .bind (hplain rfl) fun _ => hplain rfl

end Stepwise
