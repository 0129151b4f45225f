import Stepwise.Proofs.Stage

/-!
# Running steps in parts

Steps are run by three drivers: as a list, as a script, and as a list in a condition. What a list
does is what its parts do one after the other, up to the first failure; the other two drivers do what
running the list does, and hand the outcome of a failed step on as it is.

* `Engine.run_runItems_append`: one list after another.
* `Engine.run_stepsFrom`: a script against a list.
* `Engine.Chooses`, `Engine.Nested`: conditions that hold, one inside another.
* `Engine.runSteps_composes`: the three drivers together.
-/

namespace Stepwise

namespace Engine

variable {σ : Type} {e : Engine} {world : World σ} {r : Run} {w : σ}

/-! ## Lists -/

theorem run_runItems_cons (count : Nat) (v : Value) (vs : List Value) :
    (e.runItems count (v :: vs)).run world r w =
      let (o, r, w) := (e.dispatchValue v).run world r w
      if o.isError then (.error o, r, w) else (e.runItems (count + 1) vs).run world r w := by
  rw [runItems]
  show ((e.dispatchValue v).bind _).run world r w = _
  rw [Process.run_bind]
  dsimp only
  split
  · rfl
  · rfl

/-- Where the count begins matters to the count only. -/
theorem run_runItems (count : Nat) (vs : List Value) :
    (e.runItems count vs).run world r w =
      match (e.runItems 0 vs).run world r w with
      | (.error o, r, w) => (.error o, r, w)
      | (.ok _, r, w) => (.ok (count + vs.length), r, w) := by
  induction vs generalizing count r w with
  | nil => rfl
  | cons v vs ih =>
    rw [run_runItems_cons, run_runItems_cons]
    dsimp only
    split
    · rfl
    · rw [ih (count + 1), ih (0 + 1)]
      cases h : (e.runItems 0 vs).run world ((e.dispatchValue v).run world r w).2.1
          ((e.dispatchValue v).run world r w).2.2 with
      | mk result after =>
        cases result with
        | error o => rfl
        | ok n =>
          dsimp only
          rw [List.length_cons, Nat.add_assoc, Nat.add_comm 1]

theorem run_runItems_append (count : Nat) (vs us : List Value) :
    (e.runItems count (vs ++ us)).run world r w =
      match (e.runItems count vs).run world r w with
      | (.error o, r, w) => (.error o, r, w)
      | (.ok n, r, w) => (e.runItems n us).run world r w := by
  induction vs generalizing count r w with
  | nil => rfl
  | cons v vs ih =>
    rw [List.cons_append, run_runItems_cons, run_runItems_cons]
    dsimp only
    split
    · rfl
    · exact ih (count + 1)

theorem run_runSteps_append (ts us : List Step) :
    (e.runSteps (ts ++ us)).run world r w =
      match (e.runSteps ts).run world r w with
      | (.error o, r, w) => (.error o, r, w)
      | (.ok _, r, w) =>
        match (e.runSteps us).run world r w with
        | (.error o, r, w) => (.error o, r, w)
        | (.ok _, r, w) => (.ok (ts.length + us.length), r, w) := by
  unfold runSteps
  rw [List.map_append, run_runItems_append, run_runItems 0 (ts.map Step.toValue)]
  cases h : (e.runItems 0 (ts.map Step.toValue)).run world r w with
  | mk result after =>
    cases result with
    | error o => rfl
    | ok n =>
      dsimp only
      rw [run_runItems]
      simp only [List.length_map, Nat.zero_add]

/-- What ends a list early is an error. -/
theorem isError_of_run_runItems {count : Nat} {vs : List Value} {o : Outcome} {r' : Run} {w' : σ}
    (h : (e.runItems count vs).run world r w = (.error o, r', w')) : o.isError = true := by
  induction vs generalizing count r w with
  | nil => cases h
  | cons v vs ih =>
    rw [run_runItems_cons] at h
    dsimp only at h
    split at h
    · rename_i ho
      cases h
      exact ho
    · exact ih h

/-! ## Scripts -/

/-- The message of a script that has run so many steps. -/
def completion (n : Nat) : String :=
  "Script executed successfully with " ++ toString n ++ " steps"

section Scripts

variable {answer : (x : Wait) → σ → x.Answer × σ}

/-- Entering a step changes the status only. -/
theorem enter_atStage (r : Run) (stage : Run.Stage) (index : Nat) :
    ∃ status, (r.atStage stage).enter index = r.atStage { stage with status } := by
  unfold Run.enter
  split
  · exact ⟨stage.status, rfl⟩
  · exact ⟨.executing index, rfl⟩

theorem run_stepsFrom_cons (index : Nat) (t : Step) (ts : List Step) :
    (e.stepsFrom index (t :: ts)).run (.answering answer) r w =
      let (o, r, w) := (e.dispatch t).run (.answering answer) (r.enter index) w
      if o.isError then (.error o, r, w)
      else (e.stepsFrom (index + 1) ts).run (.answering answer) r w := by
  rw [stepsFrom]
  show ((e.dispatch t).bind fun o =>
    if o.isError then .done (.error o) else e.stepsFrom (index + 1) ts).run (.answering answer)
      (r.enter index) w = _
  rw [Process.run_bind]
  obtain ⟨o, r', w'⟩ := (e.dispatch t).run (.answering answer) (r.enter index) w
  dsimp only
  split
  · rfl
  · rfl

/-- The steps of a script do what they do as a list, at whatever stage the run is. -/
theorem run_stepsFrom (index : Nat) (ts : List Step) (r : Run) (w : σ) (stage : Run.Stage) :
    ∃ status, (e.stepsFrom index ts).run (.answering answer) (r.atStage stage) w =
      let (result, r, w) := (e.runItems index (ts.map Step.toValue)).run (.answering answer) r w
      (result.map completion, r.atStage { stage with status }, w) := by
  induction ts generalizing index r w stage with
  | nil => exact ⟨stage.status, rfl⟩
  | cons t ts ih =>
    obtain ⟨status, hs⟩ := enter_atStage r stage index
    simp only [List.map_cons, run_stepsFrom_cons, run_runItems_cons, hs,
      Process.run_atStage (e.dispatch_own t)]
    have hv : e.dispatchValue t.toValue = e.dispatch t := rfl
    rw [hv]
    obtain ⟨o, r', w'⟩ := (e.dispatch t).run (.answering answer) r w
    by_cases ho : o.isError
    · refine ⟨status, ?_⟩
      simp only [if_pos ho]
      rfl
    · obtain ⟨status', h⟩ := ih (index + 1) r' w' { stage with status }
      refine ⟨status', ?_⟩
      simp only [if_neg ho]
      exact h

/-- A script on a new run does what its steps do as a list, and ends the run. -/
theorem run_execute (name : String) (ts : List Step) (hr : r.launched = false) :
    (e.execute name (.steps ts)).run (.answering answer) r w =
      match (e.runSteps ts).run (.answering answer) r w with
      | (.error o, r', w) => (.error o, r'.atStage ⟨true, true, .error, some o⟩, w)
      | (.ok n, r', w) => (.ok (completion n), r'.atStage ⟨true, true, .completed, r.error⟩, w) := by
  have hx : (e.execute name (.steps ts)).run (.answering answer) r w =
      ((e.stepsFrom 0 ts).bind fun result => (finish result).bind fun _ => .done result).run
        (.answering answer) (r.atStage ⟨true, true, .executing 0, r.error⟩) w := by
    cases r
    cases hr
    rfl
  obtain ⟨status, h⟩ := @run_stepsFrom _ e answer 0 ts r w ⟨true, true, .executing 0, r.error⟩
  rw [hx, Process.run_bind, h, runSteps]
  obtain ⟨result, r', w'⟩ := (e.runItems 0 (ts.map Step.toValue)).run (.answering answer) r w
  cases result with
  | ok n => rfl
  | error o => rfl

end Scripts

/-! ## Conditions -/

/-- The step `s` is a condition that holds when the variables stand so, with the steps `ts` in one
list and none in the other. -/
structure Chooses (e : Engine) (store : Store) (s : Step) (ts : List Step) : Prop where
  distinct : s.fields.names.Nodup
  action : s.action? = some "condition"
  holds : ∃ v w, s.get? "condition" = some v ∧
    Template.resolve store e.config.undefinedVariables v = .ok w ∧ conditionHolds w store = .ok true
  ifTrue : s.children? "if_true" = some (.ok ts)
  ifFalse : s.children? "if_false" = some (.ok [])

/-- `s` is a condition that holds with `ts` as its steps, or such a condition in which the first
step is one again, and so on. `later` tells which steps come after that first step, from the inside
outwards. -/
inductive Nested (e : Engine) (store : Store) (ts : List Step) : List (List Step) → Step → Prop
  | base {s : Step} : e.Chooses store s ts → Nested e store ts [] s
  | wrap {later : List (List Step)} {t s : Step} {us : List Step} : Nested e store ts later t →
      e.Chooses store s (t :: us) → Nested e store ts (us :: later) s

/-- The outcome of a condition that held. -/
def met : Outcome := .success "condition" "Condition result: true"

section Conditions

variable {store : Store} {s : Step} {ts : List Step} {answer : (x : Wait) → σ → x.Answer × σ}

theorem Chooses.actionOf (h : e.Chooses store s ts)
    (he : e.registry.find? "condition" = some (.ofKind .condition)) :
    e.actionOf s = .ok (.ofKind .condition) := by
  refine actionOf_eq_ok.mpr ⟨_, h.action, he, ?_⟩
  obtain ⟨v, w, hv, -⟩ := h.holds
  refine List.find?_eq_none.mpr fun field hf => ?_
  simp only [Descriptor.ofKind, Action.Kind.fields, List.filter, List.map, List.mem_cons,
    List.not_mem_nil, or_false] at hf
  rcases hf with rfl | rfl | rfl
  · simp [Step.contains, Entries.contains, show s.fields.get? "condition" = some v from hv]
  · simp [Step.contains, Entries.contains,
      show s.fields.get? "if_true" = _ from Step.children?_eq_ok.mp h.ifTrue]
  · simp [Step.contains, Entries.contains,
      show s.fields.get? "if_false" = _ from Step.children?_eq_ok.mp h.ifFalse]

/-- Such a condition is made ready, and asks for a choice that holds. -/
theorem Chooses.ready (h : e.Chooses store s ts) :
    ∃ s' w, e.ready (.ofKind .condition) store s = .ok s' ∧
      Action.read .condition s' = .ok (.choose (some w)) ∧ conditionHolds w store = .ok true := by
  obtain ⟨v, w, hv, hw, hh⟩ := h.holds
  obtain ⟨out, hout⟩ : ∃ out, e.fieldsRead (.ofKind .condition) store s.fields = .ok out := by
    refine fieldsRead_eq_ok fun entry he hd => ?_
    rw [filled]
    split
    · exact ⟨_, rfl⟩
    · rename_i hraw
      -- The only field that is filled is the condition.
      have hname : entry.1 = "condition" := by
        simp only [Descriptor.declares, Descriptor.ofKind, Action.Kind.fields, Action.Kind.raw,
          List.filter, List.map, Bool.not_true, Bool.or_eq_true, List.contains_iff_mem,
          List.mem_cons, List.not_mem_nil, or_false] at hd hraw
        rcases hd with hd | hd
        · exact hd
        · exact absurd hd hraw
      have := Entries.get?_of_mem h.distinct he
      rw [hname, show s.fields.get? "condition" = some v from hv] at this
      cases this
      exact ⟨w, hw⟩
  generalize hs' : handedOver (s.action?.getD "") out = s'
  have hand : e.HandedOver (.ofKind .condition) store s s' := ⟨out, hout, hs'.symm⟩
  have htrue : s'.children? "if_true" = some (.ok ts) := by
    rw [hand.children?_raw (by decide) (by decide) (by decide), h.ifTrue]
  have hfalse : s'.children? "if_false" = some (.ok []) := by
    rw [hand.children?_raw (by decide) (by decide) (by decide), h.ifFalse]
  -- What is read is the condition as it was filled, next to the lists as they were written.
  obtain ⟨w', hw', hget⟩ := hand.get?_filled (by decide) (by decide) hv
  obtain rfl : w = w' := Except.ok.inj (hw.symm.trans hw')
  have hread : Action.read .condition s' = .ok (.choose (some w)) := by
    simp only [Action.read, Step.children, htrue, hfalse, hget]
    rfl
  refine ⟨s', w, ready_eq_ok.mpr ⟨hand, ?_⟩, hread, hh⟩
  show (Action.read .condition s').map _ = .ok ()
  rw [hread]
  rfl

theorem run_prepare {d : Descriptor} {s' : Step} (hr : r.cancelled = false)
    (ha : e.actionOf s = .ok d) (hs : e.ready d r.store s = .ok s') :
    (e.prepare s).run.run (.answering answer) r w = (.ok (d, s'), r, w) := by
  unfold prepare
  rw [Attempt.run_bind, Attempt.run_access]
  simp only [Run.Access.perform, hr, Bool.false_eq_true, if_false]
  rw [Attempt.run_bind, Attempt.run_settled, ha]
  dsimp only
  rw [Attempt.run_bind, Attempt.run_access]
  simp only [Run.Access.perform]
  rw [Attempt.run_bind, Attempt.run_settled, hs]
  rfl

/-- A step that cannot be made ready leaves no trace. -/
theorem run_dispatch_unready {d : Descriptor} {c : Cause} (hr : r.cancelled = false)
    (ha : e.actionOf s = .ok d) (hs : e.ready d r.store s = .error c) :
    (e.dispatch s).run (.answering answer) r w = (e.failure s.action? c, r, w) := by
  have hp : (e.prepare s).run.run (.answering answer) r w = (.error c, r, w) := by
    unfold prepare
    rw [Attempt.run_bind, Attempt.run_access]
    simp only [Run.Access.perform, hr, Bool.false_eq_true, if_false]
    rw [Attempt.run_bind, Attempt.run_settled, ha]
    dsimp only
    rw [Attempt.run_bind, Attempt.run_access]
    simp only [Run.Access.perform]
    rw [Attempt.run_bind, Attempt.run_settled, hs]
  rw [dispatch_eq, dispatchWith]
  show (Process.bind _ _).run _ _ _ = _
  rw [Process.run_bind, hp]
  rfl

/-- What a prepared step comes to is what its action comes to, which goes into the history. -/
theorem run_dispatch_prepared {d : Descriptor} {s' : Step} (hr : r.cancelled = false)
    (ha : e.actionOf s = .ok d) (hs : e.ready d r.store s = .ok s') :
    (e.dispatch s).run (.answering answer) r w =
      match (e.handle (e.runField s.fields) d s').run.run (.answering answer) r w with
      | (.ok o, r, w) => (o, r.log ⟨d.name, o⟩, w)
      | (.error c, r, w) =>
        (e.failure (some d.name) c, r.log ⟨d.name, e.failure (some d.name) c⟩, w) := by
  rw [dispatch_eq, dispatchWith]
  show (Process.bind _ _).run _ _ _ = _
  rw [Process.run_bind, run_prepare hr ha hs]
  show (Process.bind _ _).run _ _ _ = _
  rw [Process.run_bind]
  obtain ⟨result, r', w'⟩ := (e.handle (e.runField s.fields) d s').run.run (.answering answer) r w
  cases result with
  | ok o => rfl
  | error c => rfl

/-- Dispatching a condition that holds is running its steps: a failure of theirs is handed on as it
is, and the history has one more entry. -/
theorem run_dispatch_chooses (h : e.Chooses r.store s ts)
    (he : e.registry.find? "condition" = some (.ofKind .condition)) (hr : r.cancelled = false) :
    (e.dispatch s).run (.answering answer) r w =
      match (e.runSteps ts).run (.answering answer) r w with
      | (.error o, r, w) => (o, r.log ⟨"condition", o⟩, w)
      | (.ok _, r, w) => (met, r.log ⟨"condition", met⟩, w) := by
  obtain ⟨s', v, hs, hv, hh⟩ := h.ready
  have hcarry : (e.handle (e.runField s.fields) (.ofKind .condition) s').run.run
      (.answering answer) r w =
      match (e.runSteps ts).run (.answering answer) r w with
      | (.error o, r, w) => (.ok o, r, w)
      | (.ok _, r, w) => (.ok met, r, w) := by
    -- Reading, testing the condition and running the list leave nothing else to do.
    show (Attempt.settled (Action.read .condition s') >>= fun a => _).run.run _ _ _ = _
    rw [Attempt.run_bind, Attempt.run_settled, hv]
    dsimp only [carryOut]
    rw [Attempt.run_bind, Attempt.run_access]
    dsimp only [Run.Access.perform]
    rw [Attempt.run_bind, Attempt.run_settled, hh]
    dsimp only
    rw [Attempt.run_bind, Attempt.run_lift, if_pos rfl, runField_children h.ifTrue]
    obtain ⟨result, r', w'⟩ := (e.runSteps ts).run (.answering answer) r w
    cases result with
    | ok n => rfl
    | error o => rfl
  rw [run_dispatch_prepared hr (h.actionOf he) hs, hcarry]
  obtain ⟨result, r', w'⟩ := (e.runSteps ts).run (.answering answer) r w
  cases result with
  | ok n => rfl
  | error o => rfl

variable {o : Outcome} {r' : Run} {w' : σ} {later : List (List Step)}

theorem foldl_log_succ (n : Nat) (entry : Run.Entry) (r : Run) :
    (List.replicate (n + 1) entry).foldl Run.log r =
      ((List.replicate n entry).foldl Run.log r).log entry := by
  rw [List.replicate_succ', List.foldl_append]
  rfl

/-- However deep the failure is, its outcome comes out, and no step that comes later is run. -/
theorem run_dispatch_nested_error (h : e.Nested r.store ts later s)
    (he : e.registry.find? "condition" = some (.ofKind .condition)) (hr : r.cancelled = false)
    (hx : (e.runSteps ts).run (.answering answer) r w = (.error o, r', w')) :
    (e.dispatch s).run (.answering answer) r w =
      (o, (List.replicate (later.length + 1) ⟨"condition", o⟩).foldl Run.log r', w') := by
  have ho := isError_of_run_runItems hx
  induction h with
  | base hs =>
    rw [run_dispatch_chooses hs he hr, hx]
    rfl
  | @wrap later t s us _ hs ih =>
    rw [run_dispatch_chooses hs he hr, runSteps, List.map_cons, run_runItems_cons,
      show e.dispatchValue t.toValue = e.dispatch t from rfl, ih]
    dsimp only
    rw [if_pos ho, List.length_cons, foldl_log_succ (later.length + 1)]

theorem run_dispatch_nested_ok {n : Nat} (h : e.Nested r.store ts later s)
    (he : e.registry.find? "condition" = some (.ofKind .condition)) (hr : r.cancelled = false)
    (hlater : ∀ us ∈ later, us = [])
    (hx : (e.runSteps ts).run (.answering answer) r w = (.ok n, r', w')) :
    (e.dispatch s).run (.answering answer) r w =
      (met, (List.replicate (later.length + 1) ⟨"condition", met⟩).foldl Run.log r', w') := by
  induction h with
  | base hs =>
    rw [run_dispatch_chooses hs he hr, hx]
    rfl
  | @wrap later t s us _ hs ih =>
    obtain rfl := hlater us List.mem_cons_self
    rw [run_dispatch_chooses hs he hr, runSteps, List.map_cons, run_runItems_cons,
      show e.dispatchValue t.toValue = e.dispatch t from rfl,
      ih fun us hus => hlater us (List.mem_cons_of_mem _ hus)]
    dsimp only
    rw [if_neg (by decide), List.length_cons, foldl_log_succ (later.length + 1)]
    rfl

end Conditions

/-! ## The three drivers -/

/-- A list of steps does what its parts do one after the other, and the second part is not begun
where the first fails. A script of the same steps, and a condition that holds with them as its
steps, inside as many such conditions as one likes, do the same to the variables, the output, the
triggers and the history, up to the entries of the conditions; and a failure comes out of them
as it is. -/
theorem runSteps_composes (e : Engine) (ts us : List Step)
    (answer : (x : Wait) → σ → x.Answer × σ) (r : Run) (w : σ) (hr : r.cancelled = false) :
    (∀ {τ : Type} (world : World τ) (r : Run) (w : τ),
      (e.runSteps (ts ++ us)).run world r w =
        match (e.runSteps ts).run world r w with
        | (.error o, r, w) => (.error o, r, w)
        | (.ok _, r, w) =>
          match (e.runSteps us).run world r w with
          | (.error o, r, w) => (.error o, r, w)
          | (.ok _, r, w) => (.ok (ts.length + us.length), r, w)) ∧
    (∀ name, r.launched = false →
      (e.execute name (.steps ts)).run (.answering answer) r w =
        match (e.runSteps ts).run (.answering answer) r w with
        | (.error o, r', w) => (.error o, r'.atStage ⟨true, true, .error, some o⟩, w)
        | (.ok n, r', w) =>
          (.ok (completion n), r'.atStage ⟨true, true, .completed, r.error⟩, w)) ∧
    (e.registry.find? "condition" = some (.ofKind .condition) →
      ∀ later s, e.Nested r.store ts later s →
        match (e.runSteps ts).run (.answering answer) r w with
        | (.error o, r', w') =>
          (e.dispatch s).run (.answering answer) r w =
            (o, (List.replicate (later.length + 1) ⟨"condition", o⟩).foldl Run.log r', w')
        | (.ok _, r', w') =>
          (∀ vs ∈ later, vs = []) →
            (e.dispatch s).run (.answering answer) r w =
              (met, (List.replicate (later.length + 1) ⟨"condition", met⟩).foldl Run.log r',
                w')) := by
  refine ⟨fun world r w => run_runSteps_append ts us, fun name hl => run_execute name ts hl,
    fun he later s h => ?_⟩
  split
  · rename_i hx
    exact run_dispatch_nested_error h he hr hx
  · rename_i hx
    exact fun hlater => run_dispatch_nested_ok h he hr hlater hx

/-- An unknown action in a condition in a condition ends the outer condition, whose last step is not
run, as it ends the script of that one action. -/
theorem runSteps_composes_twofold :
    let bad : Step := ⟨[("action", .str "absent")]⟩
    let choice (ts : List Step) : Step :=
      ⟨[("action", .str "condition"), ("condition", .bool true),
        ("if_true", .list (ts.map Step.toValue)), ("if_false", .list [])]⟩
    let e : Engine := {}
    let r := Run.create "nested" { logsHistory := true } e.config
    let o := e.failure (some "absent") (.unknownAction "absent")
    r.cancelled = false ∧ r.launched = false ∧
      e.Nested r.store [bad] [[bad]] (choice [choice [bad], bad]) ∧
      (e.execute "nested" (.steps [bad])).run (.answering Wait.quiet) r () =
        (.error o, r.atStage ⟨true, true, .error, some o⟩, ()) ∧
      (e.dispatch (choice [choice [bad], bad])).run (.answering Wait.quiet) r () =
        (o, (r.log ⟨"condition", o⟩).log ⟨"condition", o⟩, ()) := by
  intro bad choice e r o
  have hchoice ts (us : List Step) (h : Step.ofItems 0 (ts.map Step.toValue) = .ok us) :
      e.Chooses r.store (choice ts) us :=
    ⟨(by decide : ["action", "condition", "if_true", "if_false"].Nodup), rfl,
      ⟨_, _, rfl, rfl, rfl⟩, congrArg some h, rfl⟩
  have hn : e.Nested r.store [bad] [[bad]] (choice [choice [bad], bad]) :=
    .wrap (.base (hchoice _ _ rfl)) (hchoice _ _ rfl)
  obtain ⟨-, hx, hc⟩ := runSteps_composes e [bad] [] Wait.quiet r () rfl
  have hbad : (e.runSteps [bad]).run (.answering Wait.quiet) r () = (.error o, r, ()) := rfl
  refine ⟨rfl, rfl, hn, ?_, ?_⟩
  · rw [hx "nested" rfl, hbad]
  · have := hc rfl _ _ hn
    rw [hbad] at this
    exact this

end Engine

end Stepwise
