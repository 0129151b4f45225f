import Stepwise.Proofs.DispatchBound
import Stepwise.Proofs.Invariant

/-!
# Outcomes as data

An outcome is written as data without the parts it lacks, and a part that is missing, or null, is
read as one that is lacking. So what is read back is what was written, unless the value of the
outcome is null: that is written, and read as no value. Only the evaluation of an expression comes
to such an outcome.

* `Outcome.ofValue?_toValue`, `Outcome.survives_iff`: what is read back.
* `Process.Gives`: what a process can come to.
* `Engine.Produced`, `Engine.dispatch_gives`: the outcomes of dispatched steps.
* `Snippet.statementsFrom_keeps_survivors`: the outcomes of statements.
* `Engine.outcomes_survive`: the outcomes that are read back as they were.
-/

namespace Stepwise

/-! ## Writing and reading -/

/-- A value, where nothing counts as absent. -/
def Value.present? : Value → Option Value
  | null => none
  | v => some v

theorem Value.given?_eq (entries : Entries Value) (name : String) :
    given? entries name = (entries.get? name).bind present? := by
  unfold given?
  split
  · rename_i h
    rw [h]
    rfl
  · cases h : entries.get? name with
    | none => rfl
    | some v =>
      cases v with
      | null => exact absurd h ‹_›
      | _ => rfl

theorem Entries.get?_append {α : Type} (entries more : Entries α) (name : String) :
    Entries.get? (entries ++ more) name = (entries.get? name).or (Entries.get? more name) := by
  induction entries with
  | nil => rfl
  | cons entry rest ih =>
    rw [List.cons_append, get?, get?]
    split
    · rfl
    · exact ih

namespace Outcome

/-- A part of an outcome as data. -/
def optionalPart (name : String) : Option Value → Entries Value
  | some v => [(name, v)]
  | none => []

/-- The parts of an outcome as data. -/
def parts (o : Outcome) : Entries Value :=
  [("result", .str o.verdict.text), ("message", .str o.message)]
    ++ optionalPart "action" (o.action.map .str)
    ++ optionalPart "error_kind" (o.category.map fun c => .str c.text)
    ++ optionalPart "detail" (o.detail.map .str)
    ++ optionalPart "value" o.value

theorem toValue_eq (o : Outcome) : o.toValue = .dict o.parts := rfl

theorem get?_optionalPart (name other : String) (v : Option Value) :
    (optionalPart name v).get? other = if name = other then v else none := by
  cases v with
  | none => exact (ite_self none).symm
  | some v => rfl

theorem part?_eq {α : Type} {entries : Entries Value} {name : String} {read : Value → Option α}
    {write : α → Value} {a : Option α} (h : entries.get? name = a.map write)
    (hread : ∀ a, (write a).present? = some (write a) ∧ read (write a) = some a) :
    part? entries name read = some a := by
  unfold part?
  rw [Value.given?_eq, h]
  cases a with
  | none => rfl
  | some a =>
    obtain ⟨hpresent, hread⟩ := hread a
    rw [Option.map_some, Option.bind_some, hpresent]
    exact congrArg (Option.map some) hread

/-- The parts by their names. -/
theorem get?_parts (o : Outcome) :
    o.parts.get? "result" = some (.str o.verdict.text) ∧
      o.parts.get? "message" = some (.str o.message) ∧
      o.parts.get? "action" = o.action.map .str ∧
      o.parts.get? "error_kind" = o.category.map (fun c => .str c.text) ∧
      o.parts.get? "detail" = o.detail.map .str ∧ o.parts.get? "value" = o.value := by
  simp only [parts, Entries.get?_append, get?_optionalPart]
  simp [Entries.get?]

theorem ofText?_verdict (v : Verdict) : Verdict.ofText? v.text = some v := by
  cases v with
  | success => rfl
  | error => rfl

/-- What is read back lacks the value if that is null, and is the same otherwise. -/
theorem ofValue?_toValue (o : Outcome) :
    ofValue? o.toValue = some { o with value := o.value.bind Value.present? } := by
  obtain ⟨hresult, hmessage, haction, hcategory, hdetail, hvalue⟩ := o.get?_parts
  have haction : part? o.parts "action" Value.text? = some o.action :=
    part?_eq haction fun _ => ⟨rfl, rfl⟩
  have hcategory : part? o.parts "error_kind" (fun v => v.tag?.bind Category.ofText?) =
      some o.category := part?_eq hcategory fun c => ⟨rfl, c.ofText?_text⟩
  have hdetail : part? o.parts "detail" Value.text? = some o.detail :=
    part?_eq hdetail fun _ => ⟨rfl, rfl⟩
  have hvalue : Value.given? o.parts "value" = o.value.bind Value.present? := by
    rw [Value.given?_eq, hvalue]
  have hverdict : (Value.str o.verdict.text).tag?.bind Verdict.ofText? = some o.verdict :=
    ofText?_verdict o.verdict
  have htext : (Value.str o.message).text? = some o.message := rfl
  rw [toValue_eq]
  simp only [ofValue?, Value.record?, hresult, hmessage, haction, hcategory, hdetail, hvalue,
    hverdict, htext, Option.bind_eq_bind, Option.bind_some, Option.pure_def]

/-- The outcome is read back as it was. -/
def Survives (o : Outcome) : Prop := ofValue? o.toValue = some o

theorem survives_iff {o : Outcome} : o.Survives ↔ o.value ≠ some .null := by
  unfold Survives
  rw [ofValue?_toValue]
  have hpresent : o.value.bind Value.present? = o.value ↔ o.value ≠ some .null := by
    rcases o.value with - | v
    · exact iff_of_true rfl fun h => nomatch h
    · cases v with
      | null => exact iff_of_false (fun h => nomatch h) fun h => h rfl
      | _ => exact iff_of_true rfl fun h => nomatch h
  rw [← hpresent, Option.some.injEq]
  exact ⟨fun h => congrArg Outcome.value h, fun h => by rw [h]⟩

end Outcome

/-! ## What a process can come to -/

/-- Whatever it is answered, the process comes to something that satisfies `Q`. -/
def Process.Gives {α : Type} (Q : α → Prop) : Process α → Prop
  | done a => Q a
  | access _ next => ∀ x, (next x).Gives Q
  | wait _ next => ∀ x, (next x).Gives Q

namespace Process.Gives

variable {α β σ : Type} {Q R : α → Prop} {p : Process α}

theorem mono (h : p.Gives Q) (hQ : ∀ a, Q a → R a) : p.Gives R := by
  induction p with
  | done a => exact hQ a h
  | access c next ih => exact fun x => ih x (h x)
  | wait w next ih => exact fun x => ih x (h x)

theorem of_forall (h : ∀ a, Q a) : p.Gives Q := by
  induction p with
  | done a => exact h a
  | access c next ih => exact ih
  | wait w next ih => exact ih

theorem bind {f : α → Process β} {Q : β → Prop} (h : p.Gives fun a => (f a).Gives Q) :
    (p.bind f).Gives Q := by
  induction p with
  | done a => exact h
  | access c next ih => exact fun x => ih x (h x)
  | wait w next ih => exact fun x => ih x (h x)

/-- A run in a world comes to what the process gives. -/
theorem run (h : p.Gives Q) (world : World σ) (r : Run) (w : σ) : Q (p.run world r w).1 := by
  induction p generalizing r w with
  | done a => exact h
  | access c next ih => exact ih _ (h _) _ _
  | wait x next ih => exact ih _ (h _) _ _

end Process.Gives

namespace Attempt

/-- `Process.Gives` of an attempt that succeeds. -/
def Gives {α : Type} (Q : α → Prop) (x : Attempt α) : Prop :=
  x.run.Gives fun
    | .ok a => Q a
    | .error _ => True

namespace Gives

variable {α β : Type} {Q : α → Prop} {R : β → Prop} {x : Attempt α} {f : α → Attempt β}

theorem mono {Q' : α → Prop} (h : Gives Q x) (hQ : ∀ a, Q a → Q' a) : Gives Q' x :=
  Process.Gives.mono h fun
    | .ok a, h => hQ a h
    | .error _, _ => trivial

theorem pure {a : α} (h : Q a) : Gives Q (Pure.pure a) := h

theorem throw (c : Cause) : Gives Q (MonadExcept.throw c) := trivial

theorem settled {x : Except Cause α} (h : ∀ a, x = .ok a → Q a) : Gives Q (settled x) := by
  cases x with
  | ok a => exact h a rfl
  | error c => exact trivial

theorem lift {p : Process α} (h : p.Gives Q) : Gives Q (ExceptT.lift p) :=
  Process.Gives.bind (h.mono fun _ h => h)

/-- What comes before does not count. -/
theorem last (h : ∀ a, Gives R (f a)) : Gives R (x >>= f) := by
  refine Process.Gives.bind (Process.Gives.of_forall fun result => ?_)
  cases result with
  | ok a => exact h a
  | error c => exact trivial

theorem bind (h : Gives (fun a => Gives R (f a)) x) : Gives R (x >>= f) := by
  refine Process.Gives.bind (Process.Gives.mono h fun result hresult => ?_)
  cases result with
  | ok a => exact hresult
  | error c => exact trivial

end Gives

end Attempt

/-! ## The outcomes of steps -/

/-- The outcome has no value. -/
def Outcome.Bare (o : Outcome) : Prop := o.value = none

/-- The outcome of an expression that was evaluated to `v`. -/
def Outcome.evaluated (v : Value) : Outcome :=
  .success "eval" ("Expression result: " ++ v.display) (some v)

namespace Engine

variable {e : Engine} {lists : String → Process (Except Outcome Nat)}

/-- A list of steps that fails does so with an outcome without a value. -/
def FailsBare (p : Process (Except Outcome Nat)) : Prop :=
  p.Gives fun
    | .ok _ => True
    | .error o => o.Bare

/-- An action of this kind comes to the value of an expression, or to an outcome without a value. -/
def Comes (k : Action.Kind) (o : Outcome) : Prop := o.Bare ∨ k = .eval ∧ ∃ v, o = .evaluated v

theorem report_gives (code : Option Nat) (out err : List UInt8) :
    Attempt.Gives Outcome.Bare (report code out err) :=
  .last fun _ => .last fun _ => .last fun _ => .last fun _ => .last fun _ => .pure rfl

theorem carryOutCommand_gives (spec : Command.Spec) (shell : Bool) (timeout : Option Float) :
    Attempt.Gives Outcome.Bare (e.carryOutCommand spec shell timeout) := by
  unfold carryOutCommand
  dsimp only
  split
  · exact .settled fun o h => nomatch h
  · refine .last fun x => ?_
    cases x with
    | ended code out err => exact report_gives code out err
    | unstarted => exact .throw _
    | timedOut => exact .throw _
    | interrupted => exact .throw _

theorem store_gives (r : Http.Request) (response : Http.Response) :
    Attempt.Gives Outcome.Bare (Engine.store r response) := by
  have hend : Attempt.Gives Outcome.Bare (do
      Attempt.access (.assign "status" (.int response.status))
      Attempt.access (.assign "response_headers" (Http.headersValue response.headers))
      return .success Action.Kind.httpRequest.name ("HTTP request " ++ r.method ++ " "
        ++ r.url.toText ++ " status: " ++ toString response.status)) :=
    .last fun _ => .last fun _ => .pure rfl
  refine .last fun body => .last fun _ => ?_
  dsimp only
  split
  · exact .last fun _ => hend
  · exact hend

theorem carryOutRequest_gives (r : Http.Request) :
    Attempt.Gives Outcome.Bare (e.carryOutRequest r) := by
  unfold carryOutRequest
  split
  · exact .settled fun o h => nomatch h
  · split
    · exact .throw _
    · refine .last fun x => ?_
      cases x with
      | answered response => exact store_gives r response
      | failed => exact .throw _
      | interrupted => exact .throw _

/-- A step that fails in a pass has an outcome without a value. -/
theorem passes_gives (mode : LoopMode) (limit : Nat) {body : Process (Except Outcome Nat)}
    (hb : FailsBare body) (done left : Nat) :
    Attempt.Gives (fun result => ∀ o, result = .error o → o.Bare)
      (e.passes mode limit body done left) := by
  -- By induction on the passes that are left; only the pass that fails hands an outcome on.
  induction left generalizing done with
  | zero =>
    rw [passes_zero]
    refine .last fun another => ?_
    cases another with
    | true => exact .throw _
    | false => exact .pure fun o h => nomatch h
  | succ left ih =>
    rw [passes_succ]
    refine .last fun another => ?_
    cases another with
    | true =>
      refine .last fun _ => .bind (.lift (hb.mono fun result hresult => ?_))
      cases result with
      | ok n => exact ih (done + 1)
      | error o =>
        refine .pure fun o' ho => ?_
        cases ho
        exact hresult
    | false => exact .pure fun o h => nomatch h

theorem carryOut_gives (hl : ∀ field, FailsBare (lists field)) (a : Action) :
    Attempt.Gives (Comes a.kind) (e.carryOut lists a) := by
  cases a with
  | assign name v evaluated => exact .last fun v => .last fun _ => .pure (.inl rfl)
  | print message evaluated => exact .last fun v => .last fun _ => .pure (.inl rfl)
  | command spec shell timeout =>
    exact (carryOutCommand_gives spec shell timeout).mono fun _ => .inl
  | evaluate expression => exact .last fun v => .pure (.inr ⟨rfl, v, rfl⟩)
  | choose condition =>
    -- What comes out of a list is bare by assumption; only evaluating gives a value.
    cases condition with
    | none => exact .throw _
    | some v =>
      refine .last fun store => .last fun holds => .bind (.lift ((hl _).mono fun result h => ?_))
      cases result with
      | ok n => exact .pure (.inl rfl)
      | error o => exact .pure (.inl h)
  | iterate mode limit =>
    refine .bind ((passes_gives mode _ (hl "loop_steps") 0 _).mono fun result h => ?_)
    cases result with
    | ok n => exact .pure (.inl rfl)
    | error o => exact .pure (.inl (h o rfl))
  | pause seconds evaluated =>
    refine .last fun v => .last fun x => .last fun lasted => ?_
    cases lasted with
    | true => exact .pure (.inl rfl)
    | false => exact .throw _
  | record trigger message => exact .last fun _ => .pure (.inl rfl)
  | request r => exact (carryOutRequest_gives r).mono fun _ => .inl
  | merge sources target =>
    exact .last fun store => .last fun entries => .last fun _ => .pure (.inl rfl)

/-- The outcomes of a handler: that of an action, or the fields of the step it was asked to note. -/
def Handles (h : Handler) (o : Outcome) : Prop :=
  match h with
  | .builtin k => Comes k o
  | .recorder => ∃ fields, o = .success "noop" "ok" (some (.dict fields))

theorem handle_gives (hl : ∀ field, FailsBare (lists field)) (d : Descriptor) (s : Step) :
    Attempt.Gives (Handles d.handler) (e.handle lists d s) := by
  unfold handle
  split
  · rename_i h
    rw [h]
    exact .pure ⟨s.fields, rfl⟩
  · rename_i k h
    rw [h]
    refine .bind (.settled fun a ha => ?_)
    have hk : a.kind = k := Action.read_kind k s a ha
    subst hk
    exact carryOut_gives hl a

/-- The outcomes of a dispatched step: it failed, or its action came to this. -/
def Produced (e : Engine) (s : Step) (o : Outcome) : Prop :=
  o.Bare ∨ ∃ d, e.actionOf s = .ok d ∧ Handles d.handler o

theorem Produced.bare {s : Step} {o : Outcome} (h : e.Produced s o) (ho : o.isError = true) :
    o.Bare := by
  rcases h with h | ⟨d, -, h⟩
  · exact h
  · unfold Handles at h
    split at h
    · rcases h with h | ⟨-, v, rfl⟩
      · exact h
      · cases ho
    · obtain ⟨fields, rfl⟩ := h
      cases ho

theorem prepare_gives (s : Step) :
    Attempt.Gives (fun p => e.actionOf s = .ok p.1) (e.prepare s) := by
  have hrest : Attempt.Gives (fun p : Descriptor × Step => e.actionOf s = .ok p.1) (do
      let d ← Attempt.settled (e.actionOf s)
      let store ← Attempt.access .read
      return (d, ← Attempt.settled (e.ready d store s))) :=
    .bind (.settled fun d hd => .last fun store => .last fun s' => .pure hd)
  refine .last fun cancelled => ?_
  cases cancelled with
  | true => exact .last fun _ => hrest
  | false => exact hrest

theorem dispatchWith_gives (hl : ∀ field, FailsBare (lists field)) (s : Step) :
    (e.dispatchWith lists s).Gives (e.Produced s) := by
  refine .bind (Process.Gives.mono (prepare_gives s) fun result hp => ?_)
  cases result with
  | error c => exact .inl rfl
  | ok p =>
    refine .bind (Process.Gives.mono (handle_gives hl p.1 p.2) fun result h => ?_)
    cases result with
    | ok o => exact fun _ => .inr ⟨p.1, hp, h⟩
    | error c => exact fun _ => .inl rfl

/-- Steps that fail have outcomes without a value, however deep their lists go. -/
theorem failsBare_hereditary (e : Engine) :
    e.Hereditary (·.Gives fun o => o.isError = true → o.Bare) FailsBare where
  step lists s hl := (dispatchWith_gives hl s).mono fun _ => Produced.bare
  nothing _ := rfl
  done _ := trivial
  next p rest hp hrest := by
    refine .bind (hp.mono fun o ho => ?_)
    split
    · rename_i h
      exact ho h
    · exact hrest

/-- What a dispatched step can come to. -/
theorem dispatch_gives (e : Engine) (s : Step) : (e.dispatch s).Gives (e.Produced s) :=
  dispatchWith_gives (fun field => e.failsBare_hereditary.runField s.fields field) s

/-- The only outcomes that are not read back as they were are those of an expression that has come
to null. -/
theorem Produced.survives_or {s : Step} {o : Outcome} (h : e.Produced s o) :
    o.Survives ∨ o = .evaluated .null ∧
      ∃ d, e.actionOf s = .ok d ∧ d.handler = .builtin .eval := by
  have bare_survives {o : Outcome} (h : o.Bare) : o.Survives :=
    Outcome.survives_iff.mpr fun ho => nomatch h.symm.trans ho
  rcases h with h | ⟨d, hd, h⟩
  · exact .inl (bare_survives h)
  · unfold Handles at h
    split at h
    · rename_i k hk
      rcases h with h | ⟨rfl, v, rfl⟩
      · exact .inl (bare_survives h)
      · cases v with
        | null => exact .inr ⟨rfl, d, hd, hk⟩
        | _ => exact .inl (Outcome.survives_iff.mpr fun ho => nomatch ho)
    · obtain ⟨fields, rfl⟩ := h
      exact .inl (Outcome.survives_iff.mpr fun ho => nomatch ho)

end Engine

/-! ## The outcomes of statements -/

/-- Only outcomes that are read back as they were go into the history. -/
def Monitor.survivors : Monitor Unit where
  allows _ c := ∀ entry, c = .log entry → entry.outcome.Survives

theorem Monitor.survivors_ignoresActions : survivors.IgnoresActions := by
  intro c hc g
  refine ⟨fun entry h => ?_, rfl⟩
  subst h
  exact hc.elim

namespace Snippet

theorem outcome_survives (config : Config) (index : Nat) (result : Except Cause String) :
    (outcome config index result).Survives := by
  refine Outcome.survives_iff.mpr fun h => ?_
  cases result with
  | ok message => cases h
  | error c => cases h

theorem statementsFrom_keeps_survivors (config : Config) (lines : List (Nat × String))
    (done : Nat) :
    (statementsFrom config done lines).Keeps Monitor.survivors.watch
      (fun result _ => ∀ o, result = .error o → o.Survives) () := by
  induction lines generalizing done with
  | nil => exact fun o h => nomatch h
  | cons entry rest ih =>
    obtain ⟨index, line⟩ := entry
    have hg : Monitor.survivors.watch.Lenient (fun _ _ => True) () :=
      Monitor.survivors_ignoresActions.lenient fun _ _ => trivial
    rw [statementsFrom_cons]
    refine ⟨trivial, fun _ => ⟨(fun _ h => nomatch h), fun cancelled => ?_⟩⟩
    cases cancelled with
    | true =>
      intro o ho
      cases ho
      exact outcome_survives config index (.error .cancelled)
    | false =>
      -- The outcome of the line is what is logged and what the snippet ends with.
      refine ⟨(fun _ h => nomatch h), fun _ => ?_⟩
      refine .bind ((Engine.carryOutLine_keeps hg line).mono fun result _ _ => ?_)
      have hsurvives := outcome_survives config index result
      refine ⟨fun entry h => ?_, fun _ => ?_⟩
      · cases h
        exact hsurvives
      · split
        · intro o ho
          cases ho
          exact hsurvives
        · exact ih (done + 1)

end Snippet

namespace Engine

variable {σ : Type}

/-- Whatever a step came to in whatever state, its outcome is read back from its data as it was, but
for one: if the step evaluates an expression, and that came to null, it is read back without its
value. The outcomes of statements, in the history and in the end, are all read back as they were. -/
theorem outcomes_survive (e : Engine) (world : World σ) (r : Run) (w : σ) :
    (∀ s : Step,
      let o := ((e.dispatch s).run world r w).1
      Outcome.ofValue? o.toValue = some o ∨
        o = .evaluated .null ∧ Outcome.ofValue? o.toValue = some { o with value := none } ∧
          ∃ d, e.actionOf s = .ok d ∧ d.handler = .builtin .eval) ∧
    ∀ source : String,
      let p := Snippet.process e.config source
      (∀ o, (p.run world r w).1 = .error o → Outcome.ofValue? o.toValue = some o) ∧
      ∀ entry, Run.Access.log entry ∈ p.accesses world r w →
        Outcome.ofValue? entry.outcome.toValue = some entry.outcome := by
  refine ⟨fun s => ?_, fun source => ?_⟩
  · intro o
    rcases Produced.survives_or ((e.dispatch_gives s).run world r w) with h | ⟨ho, hd⟩
    · exact .inl h
    · refine .inr ⟨ho, ?_, hd⟩
      rw [Outcome.ofValue?_toValue, show o = .evaluated .null from ho]
      rfl
  · have h := Process.meets_iff_keeps.mpr
      (Snippet.statementsFrom_keeps_survivors e.config (Snippet.statements source) 0)
    exact ⟨h.result world r w, fun entry hentry => h.allowed_of_mem world r w hentry entry rfl⟩

/-- A line that the screen refuses ends its snippet with an outcome, which is logged as well, and
both are read back as they were. -/
theorem outcomes_survive_refused :
    let p := Snippet.process {} "__"
    let world := World.answering Wait.quiet
    let r := Run.create "refused" {} {}
    ∃ o entry, (p.run world r ()).1 = .error o ∧ Outcome.ofValue? o.toValue = some o ∧
      Run.Access.log entry ∈ p.accesses world r () ∧
        Outcome.ofValue? entry.outcome.toValue = some entry.outcome := by
  intro p world r
  have hfails : (p.run world r ()).1.isOk = false := by decide +kernel
  have hlogs : (p.accesses world r ()).any Run.Access.isLog = true := by decide +kernel
  obtain ⟨c, hc, hlog⟩ := List.any_eq_true.mp hlogs
  obtain ⟨-, hsnippets⟩ := outcomes_survive {} world r ()
  obtain ⟨hresult, hentries⟩ := hsnippets "__"
  cases ho : (p.run world r ()).1 with
  | ok message =>
    rw [ho] at hfails
    cases hfails
  | error o =>
    cases c with
    | log entry => exact ⟨o, entry, rfl, hresult o ho, hc, hentries entry hc⟩
    | _ => cases hlog

/-- The outcome of an expression that comes to null has a value, and is read back without one. -/
theorem evaluated_null_lost :
    let e : Engine := {}
    let s : Step := ⟨[("action", .str "eval"), ("expression", .str "None")]⟩
    let o := ((e.dispatch s).run (.answering Wait.quiet) (Run.create "null" {} e.config) ()).1
    o.value = some .null ∧ Outcome.ofValue? o.toValue ≠ some o := by
  intro e s o
  have htype : o.value.map Value.typeName = some "None" := by decide +kernel
  have hvalue : o.value = some .null := by
    cases hv : o.value with
    | none =>
      rw [hv] at htype
      cases htype
    | some v =>
      rw [hv] at htype
      cases v with
      | null => rfl
      | _ => simp [Value.typeName] at htype
  exact ⟨hvalue, fun h => Outcome.survives_iff.mp h hvalue⟩

end Engine

end Stepwise
