import Stepwise.Proofs.Failures
import Stepwise.Proofs.Preparation

/-!
# What carrying out an action does

An action works on its run with few accesses: it reads and sets variables, prints, records triggers,
and asks whether a loop may go on. Everything else a dispatched step does is done by the steps in
its lists. Under a watch that is lenient with those accesses, the rules here reduce what is to be
shown of a dispatched step to what is to be shown of its lists. Some are stated once more for monitors
that ignore those accesses.

* `Watch.Lenient`: actions may do their work.
* `Monitor.outcomes`: what is known of the outcomes a process makes known, which actions do not do.
* `Engine.carryOut_keeps_leaf`: actions without lists of steps.
* `Engine.carryOut_keeps_choose`: one of two lists.
* `Engine.passes_zero`, `Engine.passes_succ`: what a loop does, pass by pass.
* `Engine.passes_keeps`, `Engine.carryOut_keeps_iterate`: a list again and again, with an invariant
  that holds after so many passes.
* `Engine.dispatchWith_keeps`: preparing a step, carrying it out, and writing the history.
-/

namespace Stepwise

/-- An access that actions make themselves. -/
def Run.Access.OfAction : Run.Access → Prop
  | .read | .assign .. | .print _ | .record _ | .poll .pass => True
  | _ => False

/-- The accesses that actions make themselves are always allowed and leave no note. -/
def Monitor.IgnoresActions {γ : Type} (m : Monitor γ) : Prop :=
  ∀ c : Run.Access, c.OfAction → m.Ignores c

/-- The wait is for a command. -/
def Wait.isCommand : Wait → Bool
  | .execute .. => true
  | _ => false

/-- When the note stands so, actions may do their work: what they do themselves leaves no note, and
`E` holds of why they fail, also where a cancellation interrupts them. -/
structure Watch.Lenient {γ : Type} (m : Watch γ) (E : Cause → γ → Prop) (g : γ) : Prop where
  own : ∀ c : Run.Access, c.OfAction → m.allows g c
  unmoved : ∀ (c : Run.Access) (x : c.Answer), c.OfAction → c.tells x = false → m.answered g c x = g
  cancelled : E .cancelled (m.answered g (.poll .pass) true)
  waits : ∀ w : Wait, w.isCommand = false → m.allowsWait g w
  lasting : ∀ (w : Wait) (x : w.Answer), w.tells x = false → m.awaited g w x = g
  interrupted : ∀ (w : Wait) (x : w.Answer), w.tells x = true → E .cancelled (m.awaited g w x)
  fails : ∀ c : Cause, c.OfRun → E c g

namespace Watch.Lenient

variable {γ : Type} {m : Watch γ} {E : Cause → γ → Prop} {g : γ}

theorem ignores (h : m.Lenient E g) {c : Run.Access} (hc : c.OfAction)
    (hx : ∀ x, c.tells x = false) : m.Ignores g c :=
  ⟨h.own c hc, fun x => h.unmoved c x hc (hx x)⟩

theorem read (h : m.Lenient E g) : m.Ignores g .read := h.ignores trivial fun _ => rfl

theorem assign (h : m.Lenient E g) (name : String) (v : Value) : m.Ignores g (.assign name v) :=
  h.ignores trivial fun _ => rfl

theorem print (h : m.Lenient E g) (line : String) : m.Ignores g (.print line) :=
  h.ignores trivial fun _ => rfl

theorem record (h : m.Lenient E g) (t : Trigger) : m.Ignores g (.record t) :=
  h.ignores trivial fun _ => rfl

end Watch.Lenient

/-- A monitor that ignores actions is lenient where every cause may come up. -/
theorem Monitor.IgnoresActions.lenient {γ : Type} {m : Monitor γ} {E : Cause → γ → Prop} {g : γ}
    (hm : m.IgnoresActions) (hE : ∀ c : Cause, c.OfRun → E c g) : m.watch.Lenient E g where
  own c hc := (hm c hc g).1
  unmoved c _ hc _ := (hm c hc g).2
  cancelled := by
    show E .cancelled (m.note g (.poll .pass))
    rw [(hm (.poll .pass) trivial g).2]
    exact hE _ trivial
  waits _ _ := trivial
  lasting _ _ _ := rfl
  interrupted _ _ _ := hE _ trivial
  fails := hE

/-- The outcome that an access makes known. -/
def Run.Access.outcome? : Run.Access → Option Outcome
  | .log entry => some entry.outcome
  | .blame o => some o
  | _ => none

/-- `P` holds of every outcome that is made known. -/
def Monitor.outcomes (P : Outcome → Prop) : Monitor Unit where
  allows _ c := ∀ o, c.outcome? = some o → P o

namespace Monitor

variable {P : Outcome → Prop}

theorem outcomes_allows {c : Run.Access} (h : c.outcome? = none) : (outcomes P).allows () c :=
  fun _ ho => nomatch h.symm.trans ho

/-- Actions make no outcome known themselves. -/
theorem outcomes_ignoresActions : (outcomes P).IgnoresActions := by
  intro c hc g
  refine ⟨outcomes_allows ?_, rfl⟩
  cases c with
  | log | blame => exact hc.elim
  | _ => rfl

theorem outcomes_lenient : (outcomes P).watch.Lenient (fun _ _ => True) () :=
  outcomes_ignoresActions.lenient fun _ _ => trivial

end Monitor

/-- The command an action carries out may be begun. -/
def Watch.AllowsCommand {γ : Type} (m : Watch γ) (g : γ) : Action → Prop
  | .command spec shell _ => ∀ command seconds, spec.invocation shell = .ok command →
      m.allowsWait g (.execute command seconds)
  | _ => True

theorem Monitor.allowsCommand {γ : Type} (m : Monitor γ) (g : γ) (a : Action) :
    m.watch.AllowsCommand g a := by
  cases a with
  | command => exact fun _ _ _ => trivial
  | _ => exact trivial

/-- The action that is asked for. -/
def Action.kind : Action → Action.Kind
  | assign .. => .setVar
  | print .. => .printMsg
  | command .. => .executeCommand
  | evaluate _ => .eval
  | choose _ => .condition
  | iterate .. => .loop
  | pause .. => .delay
  | record .. => .trigger
  | request _ => .httpRequest
  | merge .. => .combineData

/-! ## What a step asks for -/

namespace Action

theorem children_of_ok {s : Step} {field action : String} {ts : List Step}
    (h : s.children field action = .ok ts) : s.children? field = some (.ok ts) := by
  unfold Step.children at h
  split at h
  · rename_i hts
    cases h
    exact hts
  · cases h
  · cases h

theorem read_condition {s : Step} {a : Action} (h : read .condition s = .ok a) :
    a = .choose (s.get? "condition") ∧
      ∀ field ∈ ["if_true", "if_false"], ∃ ts, s.children? field = some (.ok ts) := by
  obtain ⟨ts, hts, h⟩ := Except.bind_eq_ok.mp h
  obtain ⟨us, hus, h⟩ := Except.bind_eq_ok.mp h
  cases h
  refine ⟨rfl, ?_⟩
  simp only [List.mem_cons, List.not_mem_nil, or_false, forall_eq_or_imp, forall_eq]
  exact ⟨⟨ts, children_of_ok hts⟩, us, children_of_ok hus⟩

theorem read_loop {s : Step} {a : Action} (h : read .loop s = .ok a) :
    ∃ mode limit, a = .iterate mode limit ∧ loopLimit s = .ok limit ∧ loopMode s = .ok mode ∧
      ∃ ts, s.children? "loop_steps" = some (.ok ts) := by
  obtain ⟨ts, hts, h⟩ := Except.bind_eq_ok.mp h
  obtain ⟨_, -, h⟩ := Except.bind_eq_ok.mp h
  obtain ⟨limit, hl, h⟩ := Except.bind_eq_ok.mp h
  obtain ⟨mode, hm, h⟩ := Except.bind_eq_ok.mp h
  cases h
  exact ⟨mode, limit, rfl, hl, hm, ts, children_of_ok hts⟩

/-- A loop with a condition goes on as long as it holds, and not for a number of passes. -/
theorem loopMode_holding {s : Step} {mode : LoopMode} {condition : Value}
    (h : loopMode s = .ok mode) (hc : s.get? "condition" = some condition) :
    mode = .holding condition := by
  unfold loopMode at h
  rw [hc] at h
  cases hn : s.number? "iterations" with
  | none =>
    rw [hn] at h
    cases h
    rfl
  | some x =>
    rw [hn] at h
    cases h

theorem readCommand_kind (s : Step) :
    Except.GivesOnly (fun a => kind a = .executeCommand) (readCommand s) := by
  unfold readCommand
  refine .bind fun _ => ?_
  split
  · exact .bind fun _ => .guard (.pure rfl)
  · exact .error _

theorem readTrigger_kind (s : Step) :
    Except.GivesOnly (fun a => kind a = .trigger) (readTrigger s) := by
  unfold readTrigger
  refine .bind fun _ => .bind fun _ => ?_
  dsimp only
  split
  · exact .error _
  · exact .bind fun _ => .pure rfl

/-- A step asks for the action it is read as. -/
theorem read_kind (k : Action.Kind) (s : Step) :
    Except.GivesOnly (fun a => kind a = k) (read k s) := by
  unfold read
  split
  · exact .bind fun _ => .bind fun _ => .pure rfl
  · exact .bind fun _ => .pure rfl
  · exact readCommand_kind s
  · exact .bind fun _ => .pure rfl
  · exact .bind fun _ => .bind fun _ => .pure rfl
  · exact .bind fun _ => .bind fun _ => .bind fun _ => .bind fun _ => .pure rfl
  · refine .bind fun _ => ?_
    dsimp only
    split
    · exact .bind fun _ => .pure rfl
    · exact .pure rfl
  · exact readTrigger_kind s
  · exact .map fun _ => rfl
  · refine .bind fun _ => ?_
    dsimp only
    split
    · exact .bind fun _ => .pure rfl
    · exact .pure rfl

end Action

namespace Engine

variable {γ : Type} {g : γ} {e : Engine} {store : Store}

/-! ## Why actions fail -/

theorem conditionHolds_failsOnly (v : Value) :
    Except.FailsOnly Cause.OfEvaluation (conditionHolds v store) := by
  unfold conditionHolds
  split
  · exact .map (Expr.evaluate_failsOnly _ _)
  · exact .ok _

theorem invalid_failsOnly {α : Type} {k : Action.Kind} {field reason : String}
    (h : (k, field) ∈ lateFields) :
    Except.FailsOnly Cause.OfRun (Action.invalid k field reason : Except Cause α) :=
  .error (Cause.ofRun_invalidField reason h)

theorem merged_failsOnly (done : Entries Value) (sources : List Value) :
    Except.FailsOnly Cause.OfRun (merged store done sources) := by
  induction sources generalizing done with
  | nil => exact .ok _
  | cons v rest ih =>
    cases v with
    | dict entries => exact ih _
    | str name =>
      rw [merged]
      split
      · exact ih _
      · exact invalid_failsOnly (by decide)
      · exact .error trivial
    | null | bool b | int n | float x | list vs => exact invalid_failsOnly (by decide)

theorem seconds_failsOnly (v : Value) : Except.FailsOnly Cause.OfRun (Action.seconds v) := by
  unfold Action.seconds
  split
  · split
    · exact .ok _
    · exact invalid_failsOnly (by decide)
  · exact invalid_failsOnly (by decide)

theorem data_failsOnly (expectsJson : Bool) (r : Http.Response) :
    Except.FailsOnly Cause.OfRun (r.data expectsJson) := by
  unfold Http.Response.data
  dsimp only
  split
  · split
    · exact .ok _
    · split
      · exact .ok _
      · exact .error trivial
  · exact .ok _

/-! ## Actions without lists of steps -/

section Leaves

variable {m : Watch γ} {Q : Outcome → γ → Prop} {E : Cause → γ → Prop} (hg : m.Lenient E g)
  (hQ : ∀ o, o.isError = false → Q o g)

include hg

theorem valueOf_keeps {Q : Value → γ → Prop} (v : Value) (evaluated : Bool) (hQ : ∀ v, Q v g) :
    Attempt.Keeps m Q E g (valueOf v evaluated) := by
  unfold valueOf
  split
  · refine .bind (.access_ignored hg.read fun store => ?_)
    exact .settled (fun v _ => hQ v) fun c hc =>
      hg.fails c (Expr.evaluate_failsOnly _ _ c hc).ofRun
  · exact .pure (hQ v)

include hQ

theorem report_keeps (code : Option Nat) (out err : List UInt8) :
    Attempt.Keeps m Q E g (report code out err) := by
  unfold report
  refine .bind (.access_ignored (hg.print _) fun _ => ?_)
  refine .bind (.access_ignored (hg.print _) fun _ => ?_)
  refine .bind (.access_ignored (hg.assign _ _) fun _ => ?_)
  refine .bind (.access_ignored (hg.assign _ _) fun _ => ?_)
  refine .bind (.access_ignored (hg.assign _ _) fun _ => ?_)
  exact .pure (hQ _ rfl)

theorem carryOutCommand_keeps {spec : Command.Spec} {shell : Bool} (timeout : Option Float)
    (hw : ∀ command seconds, spec.invocation shell = .ok command →
      m.allowsWait g (.execute command seconds)) :
    Attempt.Keeps m Q E g (e.carryOutCommand spec shell timeout) := by
  unfold carryOutCommand
  dsimp only
  split
  · refine .settled (fun o h => nomatch h) fun c hc => hg.fails c ?_
    exact invalid_failsOnly (by decide) c hc
  · rename_i command hcommand
    refine .bind (.wait (hw command _ hcommand) fun x => ?_)
    cases x with
    | ended code out err =>
      rw [hg.lasting _ _ rfl]
      exact report_keeps hg hQ code out err
    | unstarted reason =>
      rw [hg.lasting _ _ rfl]
      exact .throw (hg.fails _ trivial)
    | timedOut =>
      rw [hg.lasting _ _ rfl]
      exact .throw (hg.fails _ trivial)
    | interrupted => exact .throw (hg.interrupted _ _ rfl)

theorem store_keeps (r : Http.Request) (response : Http.Response) :
    Attempt.Keeps m Q E g (Engine.store r response) := by
  have hend : Attempt.Keeps m Q E g (do
      Attempt.access (.assign "status" (.int response.status))
      Attempt.access (.assign "response_headers" (Http.headersValue response.headers))
      return .success Action.Kind.httpRequest.name ("HTTP request " ++ r.method ++ " "
        ++ r.url.toText ++ " status: " ++ toString response.status)) := by
    refine .bind (.access_ignored (hg.assign _ _) fun _ => ?_)
    refine .bind (.access_ignored (hg.assign _ _) fun _ => ?_)
    exact .pure (hQ _ rfl)
  unfold Engine.store
  refine .bind (.settled (fun body _ => ?_) fun c hc => hg.fails c (data_failsOnly _ _ c hc))
  refine .bind (.access_ignored (hg.assign _ _) fun _ => ?_)
  dsimp only
  split
  · exact .bind (.access_ignored (hg.assign _ _) fun _ => hend)
  · exact hend

theorem carryOutRequest_keeps (r : Http.Request) :
    Attempt.Keeps m Q E g (e.carryOutRequest r) := by
  unfold carryOutRequest
  split
  · refine .settled (fun o h => nomatch h) fun c hc => hg.fails c ?_
    exact invalid_failsOnly (by decide) c hc
  · split
    · exact .throw (hg.fails _ trivial)
    · refine .bind (.wait (hg.waits _ rfl) fun x => ?_)
      cases x with
      | answered response =>
        rw [hg.lasting _ _ rfl]
        exact store_keeps hg hQ r response
      | failed reason =>
        rw [hg.lasting _ _ rfl]
        exact .throw (hg.fails _ trivial)
      | interrupted => exact .throw (hg.interrupted _ _ rfl)

/-- An action without lists of steps succeeds, or fails with a cause of its own. -/
theorem carryOut_keeps_leaf (lists : String → Process (Except Outcome Nat)) {a : Action}
    (hc : a.kind ≠ .condition) (hl : a.kind ≠ .loop) (ha : m.AllowsCommand g a) :
    Attempt.Keeps m Q E g (e.carryOut lists a) := by
  cases a with
  | assign name v evaluated =>
    refine .bind (valueOf_keeps hg v evaluated fun v => ?_)
    refine .bind (.access_ignored (hg.assign _ _) fun _ => ?_)
    exact .pure (hQ _ rfl)
  | print message evaluated =>
    refine .bind (valueOf_keeps hg message evaluated fun v => ?_)
    refine .bind (.access_ignored (hg.print _) fun _ => ?_)
    exact .pure (hQ _ rfl)
  | command spec shell timeout => exact carryOutCommand_keeps hg hQ timeout ha
  | evaluate expression => exact .bind (valueOf_keeps hg _ true fun v => .pure (hQ _ rfl))
  | choose condition => exact absurd rfl hc
  | iterate mode limit => exact absurd rfl hl
  | pause seconds evaluated =>
    refine .bind (valueOf_keeps hg seconds evaluated fun v => ?_)
    refine .bind (.settled (fun x _ => ?_) fun c hc => hg.fails c (seconds_failsOnly v c hc))
    refine .bind (.wait (hg.waits _ rfl) fun lasted => ?_)
    cases lasted with
    | true =>
      rw [hg.lasting _ _ rfl]
      exact .pure (hQ _ rfl)
    | false => exact .throw (hg.interrupted _ _ rfl)
  | record trigger message =>
    refine .bind (.access_ignored (hg.record _) fun _ => ?_)
    exact .pure (hQ _ rfl)
  | request r => exact carryOutRequest_keeps hg hQ r
  | merge sources target =>
    refine .bind (.access_ignored hg.read fun store => ?_)
    refine .bind (.settled (fun entries _ => ?_) fun c hc => hg.fails c (merged_failsOnly _ _ c hc))
    refine .bind (.access_ignored (hg.assign _ _) fun _ => ?_)
    exact .pure (hQ _ rfl)

end Leaves

/-! ## Actions with lists of steps -/

section Lists

variable {m : Watch γ} {Q : Outcome → γ → Prop} {E : Cause → γ → Prop}
  {lists : String → Process (Except Outcome Nat)}

theorem carryOut_keeps_choose (hg : m.Lenient E g) (v : Value)
    (hl : ∀ field ∈ ["if_true", "if_false"], (lists field).Keeps m
      (Attempt.Either (fun _ g' => ∀ o, o.isError = false → Q o g') fun o g' => Q o g') g) :
    Attempt.Keeps m Q E g (e.carryOut lists (.choose (some v))) := by
  refine .bind (.access_ignored hg.read fun store => ?_)
  refine .bind (.settled (fun holds _ => ?_) fun c hc =>
    hg.fails c (conditionHolds_failsOnly v c hc).ofRun)
  have hf : (if holds then "if_true" else "if_false") ∈ ["if_true", "if_false"] := by
    cases holds <;> decide
  refine .bind (.lift ((hl _ hf).mono fun r g' hr => ?_))
  cases r with
  | ok n => exact .pure (hr _ rfl)
  | error o => exact .pure hr

theorem mayPass_keeps {Q : Bool → γ → Prop} (hg : m.Lenient E g) (mode : LoopMode) (done : Nat)
    (hQ : ∀ b, Q b g) : Attempt.Keeps m Q E g (e.mayPass mode done) := by
  have hpass : Attempt.Keeps m Q E g (e.anotherPass mode done) := by
    cases mode with
    | counted count => exact .pure (hQ _)
    | holding condition =>
      refine .bind (.access_ignored hg.read fun store => ?_)
      refine .bind (.settled (fun v _ => ?_) fun c hc =>
        hg.fails c (Template.resolve_failsOnly _ _ _ c hc).ofRun)
      refine .bind (.access_ignored hg.read fun store => ?_)
      exact .settled (fun b _ => hQ b) fun c hc =>
        hg.fails c (conditionHolds_failsOnly v c hc).ofRun
  unfold mayPass
  refine .bind (.access (hg.own (.poll .pass) trivial) fun cancelled => ?_)
  cases cancelled with
  | true => exact .bind (.throw hg.cancelled)
  | false =>
    rw [hg.unmoved (.poll .pass) false trivial rfl]
    exact hpass

/-- What a loop does in a pass before its steps. -/
def beginPass (mode : LoopMode) (done : Nat) : Attempt Unit :=
  match mode with
  | .counted _ => Attempt.access (.assign "loop_index" (.int done))
  | .holding _ => pure ()

/-- A loop with no pass left fails if it is to make another one. -/
theorem passes_zero (e : Engine) (mode : LoopMode) (limit : Nat)
    (body : Process (Except Outcome Nat)) (done : Nat) :
    e.passes mode limit body done 0 = e.mayPass mode done >>= fun
      | true => throw (Cause.loopLimitExceeded limit)
      | false => pure (.ok done) := by
  rw [passes]
  refine congrArg (bind _) (funext fun b => ?_)
  cases b with
  | true => rfl
  | false => rfl

/-- A loop with a pass left makes it if it is to make another one, and goes on if no step fails. -/
theorem passes_succ (e : Engine) (mode : LoopMode) (limit : Nat)
    (body : Process (Except Outcome Nat)) (done left : Nat) :
    e.passes mode limit body done (left + 1) = e.mayPass mode done >>= fun
      | true => beginPass mode done >>= fun _ => ExceptT.lift body >>= fun
        | .error o => pure (.error o)
        | .ok _ => e.passes mode limit body (done + 1) left
      | false => pure (.ok done) := by
  rw [passes]
  refine congrArg (bind _) (funext fun b => ?_)
  cases b with
  | true =>
    cases mode with
    | counted count => rfl
    | holding condition => rfl
  | false => rfl

theorem beginPass_keeps {Q : Unit → γ → Prop} (hg : m.Lenient E g) (mode : LoopMode) (done : Nat)
    (hQ : Q () g) : Attempt.Keeps m Q E g (beginPass mode done) := by
  cases mode with
  | counted count => exact .access_ignored (hg.assign _ _) fun _ => hQ
  | holding condition => exact .pure hQ

/-- A loop stops within its limit, and keeps what every pass keeps. The invariant `I` holds before
the first pass, and may speak of the number of passes done. -/
theorem passes_keeps {I : Nat → γ → Prop} {F : Outcome → γ → Prop} {mode : LoopMode} {limit : Nat}
    {body : Process (Except Outcome Nat)} {done left bound : Nat}
    (hbody : ∀ n < bound, ∀ g, I n g →
      body.Keeps m (Attempt.Either (fun _ g' => I (n + 1) g') F) g)
    (hI : ∀ n ≤ bound, ∀ g, I n g → m.Lenient E g)
    (h : I done g) (hb : done + left ≤ bound) :
    Attempt.Keeps m (Attempt.Either (fun n g' => n ≤ bound ∧ I n g') F) E g
      (e.passes mode limit body done left) := by
  -- By induction on the passes that are left. `done` and `left` stay within the bound together, so
  -- the invariant carries over to the next pass.
  induction left generalizing done g with
  | zero =>
    have hg := hI done (by omega) g h
    rw [passes_zero]
    refine .bind (mayPass_keeps hg mode done fun b => ?_)
    cases b with
    | true => exact .throw (hg.fails _ trivial)
    | false => exact .pure ⟨by omega, h⟩
  | succ left ih =>
    have hg := hI done (by omega) g h
    rw [passes_succ]
    refine .bind (mayPass_keeps hg mode done fun b => ?_)
    cases b with
    | true =>
      refine .bind (beginPass_keeps hg mode done (.bind (.lift ?_)))
      refine (hbody done (by omega) g h).mono fun r g' hr => ?_
      cases r with
      | ok n => exact ih hr (by omega)
      | error o => exact .pure hr
    | false => exact .pure ⟨by omega, h⟩

theorem carryOut_keeps_iterate {I : Nat → γ → Prop} (mode : LoopMode) (limit : Option Nat)
    (hbody : ∀ n < limit.getD e.config.maxLoopIterations, ∀ g, I n g →
      (lists "loop_steps").Keeps m (Attempt.Either (fun _ g' => I (n + 1) g') Q) g)
    (hI : ∀ n ≤ limit.getD e.config.maxLoopIterations, ∀ g, I n g → m.Lenient E g)
    (hQ : ∀ n ≤ limit.getD e.config.maxLoopIterations, ∀ g, I n g → ∀ o, o.isError = false → Q o g)
    (h : I 0 g) :
    Attempt.Keeps m Q E g (e.carryOut lists (.iterate mode limit)) := by
  refine .bind ((passes_keeps hbody hI h (by omega)).mono (fun r g' hr => ?_) fun _ _ h => h)
  cases r with
  | ok n => exact .pure (hQ n hr.1 g' hr.2 _ rfl)
  | error o => exact .pure hr

end Lists

/-! ## Built-in actions -/

/-- A built-in action is read from the step that is handed over, and carried out. -/
theorem handle_keeps {m : Watch γ} {Q : Outcome → γ → Prop} {E : Cause → γ → Prop}
    {k : Action.Kind} {s : Step} {lists : String → Process (Except Outcome Nat)}
    (hg : m.Lenient E g) (hr : ∀ c, Action.read k s = .error c → E c g)
    (hQ : ∀ o, o.isError = false → Q o g)
    (ha : ∀ a, Action.read k s = .ok a → m.AllowsCommand g a)
    (hc : ∀ v, k = .condition → Action.read k s = .ok (.choose v) →
      Attempt.Keeps m Q E g (e.carryOut lists (.choose v)))
    (hl : ∀ mode limit, k = .loop → Action.read k s = .ok (.iterate mode limit) →
      Attempt.Keeps m Q E g (e.carryOut lists (.iterate mode limit))) :
    Attempt.Keeps m Q E g (e.handle lists (.ofKind k) s) := by
  refine .bind (.settled (fun a hread => ?_) hr)
  have hk := Action.read_kind k s a hread
  have hcommand := ha a hread
  cases a with
  | choose v => exact hc v hk.symm hread
  | iterate mode limit => exact hl mode limit hk.symm hread
  | assign | print | command | evaluate | pause | record | request | merge =>
    exact carryOut_keeps_leaf hg hQ lists (fun h => by cases h) (fun h => by cases h) hcommand

/-! ## Dispatched steps -/

/-- `Q` holds of an outcome once it has been written to the history. -/
def Recorded (m : Watch γ) (Q : Outcome → γ → Prop) (action : String) (o : Outcome) (g : γ) :
    Prop :=
  m.allows g (.log ⟨action, o⟩) ∧ Q o (m.answered g (.log ⟨action, o⟩) ())

/-- A step that is prepared is handled, and the history is written; any other step ends as it was
refused. -/
theorem dispatchWith_keeps {m : Watch γ} {Q : Outcome → γ → Prop} {s : Step}
    {lists : String → Process (Except Outcome Nat)} (hs : m.allows g (.poll (.step s)))
    (hr : m.Ignores (m.answered g (.poll (.step s)) false) .read)
    (hc : Q (e.failure s.action? .cancelled) (m.answered g (.poll (.step s)) true))
    (hE : ∀ c, e.Unprepared s c →
      Q (e.failure s.action? c) (m.answered g (.poll (.step s)) false))
    (hQ : ∀ d s', e.Prepared s d s' →
      Attempt.Keeps m (Recorded m Q d.name)
        (fun c => Recorded m Q d.name (e.failure (some d.name) c))
        (m.answered g (.poll (.step s)) false) (e.handle lists d s')) :
    (e.dispatchWith lists s).Keeps m Q g := by
  have hp := prepare_keeps (Q := fun p g => Attempt.Keeps m (Recorded m Q p.1.name)
    (fun c => Recorded m Q p.1.name (e.failure (some p.1.name) c)) g (e.handle lists p.1 p.2))
    (E := fun c => Q (e.failure s.action? c)) hs hr hc hE hQ
  unfold dispatchWith
  refine .bind (Process.Keeps.mono hp fun r g' h => ?_)
  cases r with
  | error c => exact h
  | ok p =>
    refine .bind (Process.Keeps.mono h fun r g' h => ?_)
    cases r with
    | error c => exact .bind (.ofAccess h.1 fun _ => h.2)
    | ok o => exact .bind (.ofAccess h.1 fun _ => h.2)

/-! ## Under a monitor -/

section Monitors

variable {m : Monitor γ} {Q : Outcome → γ → Prop} {E : Cause → γ → Prop}
  {lists : String → Process (Except Outcome Nat)}

theorem carryOut_meets_choose (hm : m.IgnoresActions) (v : Value)
    (hl : ∀ field ∈ ["if_true", "if_false"], (lists field).Meets m
      (Attempt.Either (fun _ g' => ∀ o, o.isError = false → Q o g') fun o g' => Q o g') g)
    (hE : ∀ c, c.OfRun → E c g) :
    Attempt.Meets m Q E g (e.carryOut lists (.choose (some v))) :=
  Attempt.meets_iff_keeps.mpr (carryOut_keeps_choose (hm.lenient hE) v fun field hf =>
    Process.meets_iff_keeps.mp (hl field hf))

theorem carryOut_meets_iterate (hm : m.IgnoresActions) {I : Nat → γ → Prop} (mode : LoopMode)
    (limit : Option Nat)
    (hbody : ∀ n < limit.getD e.config.maxLoopIterations, ∀ g, I n g →
      (lists "loop_steps").Meets m (Attempt.Either (fun _ g' => I (n + 1) g') Q) g)
    (hE : ∀ n ≤ limit.getD e.config.maxLoopIterations, ∀ g, I n g → ∀ c, c.OfRun → E c g)
    (hQ : ∀ n ≤ limit.getD e.config.maxLoopIterations, ∀ g, I n g → ∀ o, o.isError = false → Q o g)
    (h : I 0 g) :
    Attempt.Meets m Q E g (e.carryOut lists (.iterate mode limit)) :=
  Attempt.meets_iff_keeps.mpr (carryOut_keeps_iterate mode limit
    (fun n hn g hI => Process.meets_iff_keeps.mp (hbody n hn g hI))
    (fun n hn g hI => hm.lenient (hE n hn g hI)) hQ h)

theorem handle_meets {k : Action.Kind} {s : Step} (hm : m.IgnoresActions)
    (hr : ∀ c, Action.read k s = .error c → E c g)
    (hQ : ∀ o, o.isError = false → Q o g) (hE : ∀ c, c.OfRun → E c g)
    (hc : ∀ v, k = .condition → Action.read k s = .ok (.choose v) →
      Attempt.Meets m Q E g (e.carryOut lists (.choose v)))
    (hl : ∀ mode limit, k = .loop → Action.read k s = .ok (.iterate mode limit) →
      Attempt.Meets m Q E g (e.carryOut lists (.iterate mode limit))) :
    Attempt.Meets m Q E g (e.handle lists (.ofKind k) s) :=
  Attempt.meets_iff_keeps.mpr (handle_keeps (hm.lenient hE) hr hQ (fun a _ => m.allowsCommand g a)
    (fun v hk ha => Attempt.meets_iff_keeps.mp (hc v hk ha))
    fun mode limit hk ha => Attempt.meets_iff_keeps.mp (hl mode limit hk ha))

/-- `Q` holds of an outcome once it has been written to the history. -/
def Logged (m : Monitor γ) (Q : Outcome → γ → Prop) (action : String) (o : Outcome) (g : γ) :
    Prop :=
  m.allows g (.log ⟨action, o⟩) ∧ Q o (m.note g (.log ⟨action, o⟩))

theorem dispatchWith_meets {s : Step} (hs : m.allows g (.poll (.step s))) (hr : m.Ignores .read)
    (hE : ∀ c, e.Unprepared s c → Q (e.failure s.action? c) (m.note g (.poll (.step s))))
    (hQ : ∀ d s', e.Prepared s d s' →
      Attempt.Meets m (Logged m Q d.name) (fun c => Logged m Q d.name (e.failure (some d.name) c))
        (m.note g (.poll (.step s))) (e.handle lists d s')) :
    (e.dispatchWith lists s).Meets m Q g :=
  Process.meets_iff_keeps.mpr (dispatchWith_keeps hs ⟨(hr _).1, fun _ => (hr _).2⟩
    (hE _ .cancelled) hE fun d s' hp => Attempt.meets_iff_keeps.mp (hQ d s' hp))

end Monitors

end Engine

end Stepwise
