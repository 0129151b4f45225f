import Stepwise.Proofs.Lifecycle
import Stepwise.Proofs.Redaction

/-!
# Diagnostic details

Every error that a step or a line comes to has a diagnostic detail, and every detail went through
the passes that withhold secrets before it was cut. So a cut can come between a value and its name
only where the mark stands already, and what is left of the mark is no value. Only a run that was
executed before refuses a script with an outcome that has no detail.

* `Diagnosis`: what a detail can be.
* `Outcome.Diagnosed`, `Process.Diagnosed`: an outcome with a detail, and processes that make no
  other error known.
* `Engine.dispatch_diagnosed`: by induction over the tree of steps.
* `Engine.details_withhold`: the outcomes of steps and scripts, and those in the history.
-/

namespace Stepwise

/-! ## Details -/

namespace Redact

/-- A text without secrets, or so many characters of one and the mark of a cut. Before the cut a
secret is withheld as well, but its mark may be cut. -/
def Diagnosis (limit : Nat) (detail : String) : Prop :=
  ∃ source : String, let cs := (redact source).toList
    Cleared secretNames cs ∧
      (cs.length ≤ limit ∧ detail.toList = cs ∨
        limit < cs.length ∧ detail.toList = cs.take limit ++ cutMark ∧
          ∀ before word rest, cs.take limit = before ++ word ++ rest →
            ∀ name ∈ secretNames, Spells name word → Withheld rest ∨ rest <+: mark)

theorem diagnosis_cap (text : String) (limit : Nat) : Diagnosis limit (cap text limit) := by
  have hcs : (redact text).toList = redactChars text.toList := String.toList_ofList
  have hcleared := cleared_redactChars text.toList
  refine ⟨text, hcs ▸ hcleared, ?_⟩
  rw [hcs, cap]
  split
  · rename_i hle
    exact .inl ⟨hle, String.toList_ofList⟩
  · rename_i hlt
    refine .inr ⟨Nat.lt_of_not_le hlt, String.toList_ofList, ?_⟩
    exact fun before word rest htake name hname hword => hcleared.take htake hname hword

end Redact

/-- An error has a detail, and the detail withholds secrets. -/
def Outcome.Diagnosed (limit : Nat) (o : Outcome) : Prop :=
  o.isError = true → ∃ detail, o.detail = some detail ∧ Redact.Diagnosis limit detail

theorem Outcome.diagnosed_of_not_isError {limit : Nat} {o : Outcome} (h : o.isError = false) :
    o.Diagnosed limit := fun ho => nomatch h.symm.trans ho

theorem Outcome.diagnosed_failure (action : Option String) (limit : Nat) (c : Cause) :
    (failure action limit c).Diagnosed limit :=
  fun _ => ⟨_, rfl, Redact.diagnosis_cap c.diagnostic limit⟩

/-! ## Processes -/

/-- The errors a process notes and those it ends with have details that withhold secrets. -/
def Process.Diagnosed (limit : Nat) (p : Process Outcome) : Prop :=
  p.Meets (.outcomes (·.Diagnosed limit)) (fun o _ => o.Diagnosed limit) ()

/-- The same of a process that tells its success otherwise. -/
def Process.FailsDiagnosed {α : Type} (limit : Nat) (p : Process (Except Outcome α)) : Prop :=
  p.Meets (.outcomes (·.Diagnosed limit))
    (Attempt.Either (fun _ _ => True) fun o _ => o.Diagnosed limit) ()

namespace Snippet

theorem outcome_diagnosed (config : Config) (index : Nat) (result : Except Cause String) :
    (outcome config index result).Diagnosed config.diagnosticLimit := by
  cases result with
  | ok message => exact Outcome.diagnosed_of_not_isError rfl
  | error c => exact fun _ => ⟨_, rfl, Redact.diagnosis_cap c.diagnostic config.diagnosticLimit⟩

theorem statementsFrom_diagnosed (config : Config) (lines : List (Nat × String)) (done : Nat) :
    (statementsFrom config done lines).FailsDiagnosed config.diagnosticLimit := by
  refine Process.meets_iff_keeps.mpr ?_
  induction lines generalizing done with
  | nil => exact trivial
  | cons entry rest ih =>
    obtain ⟨index, line⟩ := entry
    rw [statementsFrom_cons]
    refine ⟨trivial, fun _ => ⟨Monitor.outcomes_allows rfl, fun cancelled => ?_⟩⟩
    cases cancelled with
    | true => exact outcome_diagnosed config index (.error .cancelled)
    | false =>
      refine ⟨Monitor.outcomes_allows rfl, fun _ => ?_⟩
      refine .bind ((Engine.carryOutLine_keeps Monitor.outcomes_lenient line).mono ?_)
      intro result _ _
      have ho := outcome_diagnosed config index result
      refine ⟨fun o h => Option.some.inj h ▸ ho, fun _ => ?_⟩
      split
      · exact ho
      · exact ih (done + 1)

end Snippet

namespace Engine

variable {e : Engine} {lists : String → Process (Except Outcome Nat)}

/-- The limit of details. -/
abbrev detailLimit (e : Engine) : Nat := e.config.diagnosticLimit

theorem carryOut_diagnosed (hl : ∀ field, (lists field).FailsDiagnosed e.detailLimit) (a : Action) :
    Attempt.Meets (.outcomes (·.Diagnosed e.detailLimit)) (fun o _ => o.Diagnosed e.detailLimit)
      (fun _ _ => True) () (e.carryOut lists a) := by
  -- An outcome that is no error has no detail.
  have hsuccess (o : Outcome) (ho : o.isError = false) : o.Diagnosed e.detailLimit :=
    Outcome.diagnosed_of_not_isError ho
  cases a with
  | choose condition =>
    cases condition with
    | none => exact trivial
    | some v =>
      refine carryOut_meets_choose Monitor.outcomes_ignoresActions v (fun field _ => ?_)
        fun _ _ => trivial
      refine (hl field).mono fun result _ h => ?_
      cases result with
      | ok n => exact hsuccess
      | error o => exact h
  | iterate mode limit =>
    exact carryOut_meets_iterate (I := fun _ _ => True) Monitor.outcomes_ignoresActions mode
      limit (fun _ _ _ _ => hl "loop_steps") (fun _ _ _ _ _ _ => trivial) (fun _ _ _ _ => hsuccess)
      trivial
  | assign | print | command | evaluate | pause | record | request | merge =>
    exact Attempt.meets_iff_keeps.mpr (carryOut_keeps_leaf Monitor.outcomes_lenient hsuccess
      lists (fun h => by cases h) (fun h => by cases h) (Monitor.allowsCommand _ _ _))

theorem dispatchWith_diagnosed (hl : ∀ field, (lists field).FailsDiagnosed e.detailLimit)
    (s : Step) : (e.dispatchWith lists s).Diagnosed e.detailLimit := by
  have logged (action : String) {o : Outcome} (ho : o.Diagnosed e.detailLimit) :
      Logged (.outcomes (·.Diagnosed e.detailLimit)) (fun o _ => o.Diagnosed e.detailLimit)
        action o () :=
    ⟨fun _ h => Option.some.inj h ▸ ho, ho⟩
  refine dispatchWith_meets (Monitor.outcomes_allows rfl)
    (Monitor.outcomes_ignoresActions _ trivial)
    (fun c _ => Outcome.diagnosed_failure _ _ c) fun d s' _ => Attempt.meets_iff_keeps.mpr ?_
  have hfailed (c : Cause) :=
    logged d.name (Outcome.diagnosed_failure (some d.name) e.detailLimit c)
  unfold handle
  split
  · exact .pure (logged d.name (Outcome.diagnosed_of_not_isError rfl))
  · refine .bind (.settled (fun a _ => ?_) fun c _ => hfailed c)
    exact (Attempt.meets_iff_keeps.mp (carryOut_diagnosed hl a)).mono
      (fun _ _ ho => logged d.name ho) fun c _ _ => hfailed c

/-- The errors in the lists of a step are those of the steps in them. -/
theorem diagnosed_hereditary (e : Engine) :
    e.Hereditary (·.Diagnosed e.detailLimit) (·.FailsDiagnosed e.detailLimit) where
  step _ s hl := dispatchWith_diagnosed hl s
  nothing := Outcome.diagnosed_of_not_isError rfl
  done _ := trivial
  next p rest hp hrest := by
    refine Process.meets_iff_keeps.mpr (.bind ((Process.meets_iff_keeps.mp hp).mono ?_))
    intro o _ ho
    split
    · exact ho
    · exact Process.meets_iff_keeps.mp hrest

/-- Every error of a step has a detail that withholds secrets, however deep its lists go. -/
theorem dispatch_diagnosed (e : Engine) (s : Step) : (e.dispatch s).Diagnosed e.detailLimit :=
  e.diagnosed_hereditary.dispatch s

theorem stepsFrom_diagnosed (e : Engine) (ts : List Step) (index : Nat) :
    (e.stepsFrom index ts).FailsDiagnosed e.detailLimit := by
  refine Process.meets_iff_keeps.mpr ?_
  induction ts generalizing index with
  | nil => exact trivial
  | cons t ts ih =>
    refine .bind (.ofAccess (Monitor.outcomes_allows rfl) fun _ => ?_)
    refine Process.Keeps.bind ((Process.meets_iff_keeps.mp (e.dispatch_diagnosed t)).mono ?_)
    intro o _ ho
    split
    · exact ho
    · exact ih (index + 1)

theorem body_diagnosed (e : Engine) (script : Script) :
    (e.body script).FailsDiagnosed e.detailLimit := by
  cases script with
  | steps ts => exact stepsFrom_diagnosed e ts 0
  | snippet source => exact Snippet.statementsFrom_diagnosed e.config _ 0

/-- Every error of a script has such a detail as well, but for that of a run that was executed
before. -/
theorem execute_diagnosed (e : Engine) (name : String) (script : Script) :
    (e.execute name script).Meets (.outcomes (·.Diagnosed e.detailLimit))
      (fun result _ => ∀ o, result = .error o → o = alreadyStarted name ∨ o.Diagnosed e.detailLimit)
      () := by
  rw [execute_eq]
  refine Process.meets_iff_keeps.mpr ⟨Monitor.outcomes_allows rfl, fun launched => ?_⟩
  cases launched with
  | true => exact fun o ho => .inl (Except.error.inj ho).symm
  | false =>
    refine ⟨Monitor.outcomes_allows rfl, fun _ => ⟨Monitor.outcomes_allows rfl, fun _ => ?_⟩⟩
    refine .bind ((Process.meets_iff_keeps.mp (e.body_diagnosed script)).mono fun result _ h => ?_)
    cases result with
    | ok message => exact ⟨Monitor.outcomes_allows rfl, fun _ _ ho => nomatch ho⟩
    | error o =>
      refine ⟨fun o' ho => Option.some.inj ho ▸ h, fun _ => ?_⟩
      refine ⟨Monitor.outcomes_allows rfl, fun _ o' ho => .inr ?_⟩
      exact Except.error.inj ho ▸ h

/-- No assigned secret is left: in a text after all passes every one is withheld, and the detail of
an error is such a text, or the beginning of one. This holds of the errors a step or a script comes
to, and of all that are noted on the way. -/
theorem details_withhold {τ : Type} (e : Engine) (world : World τ) (r : Run) (t : τ) :
    (∀ text : String, Redact.Cleared Redact.secretNames (Redact.redact text).toList) ∧
    (∀ s : Step, let p := e.dispatch s
      (p.run world r t).1.Diagnosed e.config.diagnosticLimit ∧
        ∀ c ∈ p.accesses world r t, ∀ o, c.outcome? = some o →
          o.Diagnosed e.config.diagnosticLimit) ∧
    ∀ (name : String) (script : Script), let p := e.execute name script
      (∀ o, (p.run world r t).1 = .error o →
        o = alreadyStarted name ∨ o.Diagnosed e.config.diagnosticLimit) ∧
        ∀ c ∈ p.accesses world r t, ∀ o, c.outcome? = some o →
          o.Diagnosed e.config.diagnosticLimit := by
  refine ⟨fun text => ?_, fun s => ?_, fun name script => ?_⟩
  · rw [Redact.redact, String.toList_ofList]
    exact Redact.cleared_redactChars text.toList
  · have h := e.dispatch_diagnosed s
    exact ⟨h.result world r t, fun c hc => h.allowed_of_mem world r t hc⟩
  · have h := e.execute_diagnosed name script
    exact ⟨h.result world r t, fun c hc => h.allowed_of_mem world r t hc⟩

/-- The name of an unknown action holds two secrets, and the detail is cut within the mark of the
second one. -/
theorem details_withhold_cut :
    let e : Engine := { config := { diagnosticLimit := 55 } }
    let p := e.execute "cut" (.steps [⟨[("action", .str "API_KEY=toKen=1 PASSWORD=x")]⟩])
    let r := Run.create "cut" {} e.config
    let world := World.answering Wait.quiet
    ∃ o, (p.run world r ()).1 = .error o ∧ o.Diagnosed 55 ∧
      o.detail =
        some "UnknownAction \x7b name: \"API_KEY=<redacted> PASSWORD=<red… [truncated]" ∧
      ∃ c ∈ p.accesses world r (), ∃ o', c.outcome? = some o' ∧ o'.Diagnosed 55 := by
  intro e p r world
  have hdetail : (p.run world r ()).1.mapError (·.detail) =
      .error (some "UnknownAction \x7b name: \"API_KEY=<redacted> PASSWORD=<red… [truncated]") := by
    decide +kernel
  have hnotes : (p.accesses world r ()).any (·.outcome?.isSome) = true := by decide +kernel
  obtain ⟨c, hc, ho⟩ := List.any_eq_true.mp hnotes
  obtain ⟨o', ho'⟩ := Option.isSome_iff_exists.mp ho
  obtain ⟨-, -, hexecute⟩ := details_withhold e world r ()
  obtain ⟨hresult, hnoted⟩ :=
    hexecute "cut" (.steps [⟨[("action", .str "API_KEY=toKen=1 PASSWORD=x")]⟩])
  cases h : (p.run world r ()).1 with
  | ok message =>
    rw [h] at hdetail
    cases hdetail
  | error o =>
    rw [h] at hdetail
    replace hdetail := Except.error.inj hdetail
    refine ⟨o, rfl, (hresult o h).resolve_left ?_, hdetail, c, hc, o', ho', hnoted c hc o' ho'⟩
    rintro rfl
    cases hdetail

end Engine

end Stepwise
