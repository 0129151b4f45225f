import Stepwise.Proofs.Calls

/-!
# The history of a run

A script on a run that keeps a history writes the entries of the calls it makes, in post-order:
those of the steps that a condition or a loop dispatched, in their order, and then that of the
condition or the loop. As long as nothing has failed these are entries of successes; and a failure
is written by the step it began in, if its action was asked, and then by the conditions and loops
around it, from the inside outwards, and by nothing else.

* `Run.Access.isMark`: the accesses with which calls begin and end.
* `Engine.dispatch_makes`: a step makes the calls it can come to, and no others.
* `Engine.Executes`: the calls of a script.
* `Engine.execute_history`: the history after a script.
-/

namespace Stepwise

namespace Run.Access

/-- A call begins or ends with the access. -/
def isMark : Run.Access → Bool
  | .poll (.step _) | .poll .line | .log _ => true
  | _ => false

theorem isMark_of_action {c : Run.Access} (h : c.OfAction) : c.isMark = false := by
  cases c with
  | poll point => cases point <;> first | rfl | exact h.elim
  | read | assign | print | record => rfl
  | _ => exact h.elim

theorem isMark_of_lifecycle {c : Run.Access} (h : c.OfLifecycle) : c.isMark = false := by
  cases c with
  | launch | start | announce | enter | blame => rfl
  | _ => exact h.elim

end Run.Access

/-- Records where calls begin and end. -/
def Monitor.marks : Monitor (List Run.Access) := .recording Run.Access.isMark

theorem Monitor.marks_ignoresActions : marks.IgnoresActions :=
  fun _ hc => recording_ignores (Run.Access.isMark_of_action hc)

theorem Monitor.marks_ignoresLifecycle : marks.IgnoresLifecycle :=
  fun _ hc => recording_ignores (Run.Access.isMark_of_lifecycle hc)

/-- The outcome that ended something early. -/
def fault? {α : Type} : Except Outcome α → Option Outcome
  | .ok _ => none
  | .error o => some o

/-- After `g`, calls of which `P` holds have been recorded. -/
def Traced (P : List Call → Prop) (g g' : List Run.Access) : Prop :=
  ∃ cs, P cs ∧ g' = g ++ cs.flatMap Call.trail

namespace Traced

variable {P P' R : List Call → Prop} {g g' g'' : List Run.Access}

theorem mono (h : Traced P g g') (hP : ∀ cs, P cs → R cs) : Traced R g g' := by
  obtain ⟨cs, hcs, hg⟩ := h
  exact ⟨cs, hP cs hcs, hg⟩

theorem refl (h : P []) : Traced P g g := ⟨[], h, (List.append_nil g).symm⟩

theorem trans (h : Traced P g g') (h' : Traced P' g' g'')
    (hR : ∀ cs ds, P cs → P' ds → R (cs ++ ds)) : Traced R g g'' := by
  obtain ⟨cs, hcs, rfl⟩ := h
  obtain ⟨ds, hds, rfl⟩ := h'
  exact ⟨cs ++ ds, hR cs ds hcs hds, by rw [List.flatMap_append, List.append_assoc]⟩

end Traced

namespace Engine

variable {e : Engine} {s : Step} {ts : List Step} {g g₁ : List Run.Access}

/-! ## Lists -/

/-- A step that is dispatched makes one of the calls it can come to. -/
def MakesCalls (e : Engine) (s : Step) : Prop :=
  ∀ g, (e.dispatch s).Meets .marks
    (fun o => Traced (fun cs => ∃ c, cs = [c] ∧ e.Makes s c ∧ c.outcome = o) g) g

/-- The calls of a list are made in turn, and the steps that are left come after those that are
done. -/
theorem leads_inTurn (ts : List Step) (g : List Run.Access) :
    e.Leads .marks
      (fun us g' => (∀ t ∈ us, e.MakesCalls t) ∧ ∃ done, ts = done ++ us ∧
        Traced (fun cs => InTurn e.Makes done cs none) g g')
      (fun o => Traced (fun cs => InTurn e.Makes ts cs (some o)) g) := by
  rintro t us g' ⟨hd, done, rfl, hdone⟩
  refine (hd t List.mem_cons_self g').mono fun o g'' hc => ?_
  unfold Ends
  split
  · rename_i ho
    refine hdone.trans hc fun cs ds hcs hds => ?_
    obtain ⟨c, rfl, hmakes, rfl⟩ := hds
    exact hcs.snoc_fault hmakes ho
  · rename_i ho
    refine ⟨fun u hu => hd u (List.mem_cons_of_mem t hu), done ++ [t], ?_, ?_⟩
    · rw [List.append_assoc]
      rfl
    · refine hdone.trans hc fun cs ds hcs hds => ?_
      obtain ⟨c, rfl, hmakes, rfl⟩ := hds
      exact hcs.snoc hmakes (Bool.eq_false_iff.mpr ho)

theorem runSteps_makes (h : ∀ t ∈ ts, e.MakesCalls t) (g : List Run.Access) :
    (e.runSteps ts).Meets .marks
      (fun result => Traced (fun cs => InTurn e.Makes ts cs (fault? result)) g) g := by
  refine (runSteps_meets (leads_inTurn ts g) ⟨h, [], rfl, .refl .nil⟩).mono fun result g' hr => ?_
  cases result with
  | error o => exact hr
  | ok n =>
    obtain ⟨-, done, hdone, hr⟩ := hr
    rw [List.append_nil] at hdone
    exact hdone ▸ hr

/-! ## Actions -/

/-- What is recorded of the calls that a step makes before it comes to its outcome. -/
def Served (e : Engine) (s : Step) (k : Action.Kind) (g : List Run.Access) (o : Outcome) :
    List Run.Access → Prop :=
  Traced (fun inner => ∃ us fault, Serves s k o us ∧ InTurn e.Makes us inner fault ∧
    ∀ o', fault = some o' → o = o') g

theorem served_of_none {k : Action.Kind} {o : Outcome} (h : Serves s k o []) :
    e.Served s k g o g :=
  .refl ⟨[], none, h, .nil, fun _ h => nomatch h⟩

theorem Prepared.exists_read {k : Action.Kind} {s' : Step} (h : e.Prepared s (.ofKind k) s')
    (hp : k ≠ .printMsg) (he : k ≠ .eval) : ∃ a, Action.read k s' = .ok a := by
  have hc : Action.check k s' = .ok () := h.checked
  unfold Action.check at hc
  split at hc
  · exact absurd rfl hp
  · exact absurd rfl he
  · obtain ⟨a, ha, -⟩ := Except.map_eq_ok.mp hc
    exact ⟨a, ha⟩

/-- Lists of a step are run in turn. -/
theorem runField_makes {field : String} (hts : s.children? field = some (.ok ts))
    (h : ∀ t, t.Child s → e.MakesCalls t) (g : List Run.Access) :
    (e.runField s.fields field).Meets .marks
      (fun result => Traced (fun cs => InTurn e.Makes ts cs (fault? result)) g) g := by
  rw [runField_children hts]
  exact runSteps_makes (fun t ht => h t ⟨field, ts, hts, ht⟩) g

theorem handle_condition_serves {s' : Step} (hp : e.Prepared s (.ofKind .condition) s')
    (h : ∀ t, t.Child s → e.MakesCalls t) (g : List Run.Access) :
    Attempt.Meets .marks (e.Served s .condition g)
      (fun c => e.Served s .condition g (e.failure (some "condition") c)) g
      (e.handle (e.runField s.fields) (.ofKind .condition) s') := by
  obtain ⟨a, ha⟩ := hp.exists_read (by decide) (by decide)
  obtain ⟨rfl, hlists⟩ := Action.read_condition ha
  have hc : s'.contains "condition" = true := hp.contains (by decide) (by decide)
  obtain ⟨v, hv⟩ := Option.isSome_iff_exists.mp hc
  rw [show s'.get? "condition" = some v from hv] at ha
  refine Attempt.meets_iff_keeps.mpr (.bind (.settled (fun a' ha' => ?_) fun c hc => ?_))
  · -- The lists were parsed when the step was prepared, so the branch that is chosen can be run.
    obtain rfl := Except.ok.inj (ha.symm.trans ha')
    refine Attempt.meets_iff_keeps.mp (carryOut_meets_choose Monitor.marks_ignoresActions v
      (fun field hf => ?_) fun c _ => served_of_none (.undecided rfl))
    obtain ⟨ts, hts⟩ := hlists field hf
    rw [hp.children?_eq hf] at hts
    refine (runField_makes hts h g).mono fun result g' hr => ?_
    cases result with
    | ok n =>
      intro o _
      exact hr.mono fun cs hcs => ⟨ts, none, .branch hf hts, hcs, fun _ h => nomatch h⟩
    | error o =>
      exact hr.mono fun cs hcs => ⟨ts, some o, .branch hf hts, hcs, fun _ h => Option.some.inj h⟩
  · exact nomatch ha.symm.trans hc

/-- A loop makes the calls of its passes, up to the first that fails. -/
theorem handle_loop_serves {s' : Step} (hp : e.Prepared s (.ofKind .loop) s')
    (h : ∀ t, t.Child s → e.MakesCalls t) (g : List Run.Access) :
    Attempt.Meets .marks (e.Served s .loop g)
      (fun c => e.Served s .loop g (e.failure (some "loop") c)) g
      (e.handle (e.runField s.fields) (.ofKind .loop) s') := by
  obtain ⟨a, ha⟩ := hp.exists_read (by decide) (by decide)
  obtain ⟨mode, limit, rfl, -, -, ts, hts⟩ := Action.read_loop ha
  rw [hp.children?_eq (by decide)] at hts
  -- Between the passes, all calls made so far are those of whole passes.
  have hserved {n : Nat} {g' : List Run.Access} (o : Outcome)
      (hn : Traced (fun cs => InTurn e.Makes (List.replicate n ts).flatten cs none) g g') :
      e.Served s .loop g o g' :=
    hn.mono fun cs hcs => ⟨_, none, .passes n hts, hcs, fun _ h => nomatch h⟩
  refine Attempt.meets_iff_keeps.mpr (.bind (.settled (fun a' ha' => ?_) fun c hc => ?_))
  · obtain rfl := Except.ok.inj (ha.symm.trans ha')
    refine Attempt.meets_iff_keeps.mp (carryOut_meets_iterate
      (I := fun n => Traced (fun cs => InTurn e.Makes (List.replicate n ts).flatten cs none) g)
      Monitor.marks_ignoresActions mode limit (fun n _ g' hn => ?_) (fun n _ g' hn c _ => ?_)
      (fun n _ g' hn o _ => ?_) (.refl .nil))
    · refine (runField_makes hts h g').mono fun result g'' hr => ?_
      cases result with
      -- The pass succeeded, and there is one more.
      | ok m =>
        refine hn.trans hr fun cs ds hcs hds => ?_
        rw [List.replicate_succ', List.flatten_append, List.flatten_singleton]
        exact hcs.append hds
      -- The pass failed, and the loop with it.
      | error o =>
        refine hn.trans hr fun cs ds hcs hds => ⟨_, some o, .passes (n + 1) hts, ?_, ?_⟩
        · rw [List.replicate_succ', List.flatten_append, List.flatten_singleton]
          exact hcs.append hds
        · exact fun _ h => Option.some.inj h
    · exact hserved _ hn
    · exact hserved o hn
  · exact nomatch ha.symm.trans hc

/-- A built-in action makes the calls that its step serves, before it comes to its outcome. -/
theorem handle_serves {k : Action.Kind} {s' : Step} (hp : e.Prepared s (.ofKind k) s')
    (h : ∀ t, t.Child s → e.MakesCalls t) (g : List Run.Access) :
    Attempt.Meets .marks (e.Served s k g)
      (fun c => e.Served s k g (e.failure (some k.name) c)) g
      (e.handle (e.runField s.fields) (.ofKind k) s') := by
  by_cases hc : k = .condition
  · subst hc
    exact handle_condition_serves hp h g
  · by_cases hl : k = .loop
    · subst hl
      exact handle_loop_serves hp h g
    · have hnone o : e.Served s k g o g := served_of_none (.leaf hc hl)
      exact handle_meets Monitor.marks_ignoresActions (fun c _ => hnone _) (fun o _ => hnone o)
        (fun c _ => hnone _) (fun _ hk => absurd hk hc) fun _ _ hk => absurd hk hl

/-! ## Steps -/

/-- The entry of a call comes behind the calls it made. -/
theorem Served.logged {k : Action.Kind} {s' : Step} (hp : e.Prepared s (.ofKind k) s') {o : Outcome}
    {g' : List Run.Access}
    (h : e.Served s k (Monitor.marks.note g (.poll (.step s))) o g') :
    Logged .marks
      (fun o => Traced (fun cs => ∃ c, cs = [c] ∧ e.Makes s c ∧ c.outcome = o) g) k.name o g' := by
  obtain ⟨inner, ⟨us, fault, hs, hturn, hfault⟩, rfl⟩ := h
  refine ⟨trivial, [_], ⟨_, rfl, .handled hp hs hturn hfault, rfl⟩, ?_⟩
  rw [Monitor.marks, Monitor.recording_note rfl, Monitor.recording_note rfl]
  simp only [List.flatMap_cons, List.flatMap_nil, List.append_nil, Call.trail, Call.trailOf_eq,
    List.append_assoc, List.cons_append, List.nil_append]

/-- A step makes one of the calls it can come to, however deep its lists go. -/
theorem dispatch_makes (he : e.registry = .builtins) (s : Step) : e.MakesCalls s := by
  induction s using Step.induct with
  | step s ih =>
    intro g
    rw [dispatch_eq]
    refine dispatchWith_meets trivial (Monitor.marks_ignoresActions _ trivial) (fun c hc => ?_)
      fun d s' hp => ?_
    · exact ⟨[_], ⟨_, rfl, .refused hc, rfl⟩, Monitor.recording_note rfl g⟩
    · obtain ⟨k, rfl, -⟩ := actionOf_builtins he hp.action
      exact (handle_serves hp ih _).mono (fun o g' h => h.logged hp) fun c g' h => h.logged hp

end Engine

/-! ## Lines -/

namespace Snippet

variable {config : Config} {g g₁ : List Run.Access}

/-- The calls a line can come to. -/
inductive Makes (config : Config) : Nat × String → Call → Prop
  | refused {index : Nat} {line : String} :
      Makes config (index, line) (.refused .line (failure config index .cancelled))
  | handled {index : Nat} {line : String} (result : Except Cause String) :
      Makes config (index, line) (.handled .line ⟨actionName, outcome config index result⟩ [])

theorem Makes.closes {l : Nat × String} {c : Call} (h : Makes config l c) :
    Call.Closes [c] c.fault? := by
  cases h with
  | refused => exact .refused rfl
  | @handled index line result =>
    cases result with
    | ok message => exact Call.Closes.nil.success rfl
    | error c =>
      refine Call.Closes.nil.failure rfl fun chain hvia => ?_
      cases hvia
      exact .here fun _ h => nomatch h

/-- The lines make their calls in turn, and what is in a line leaves no mark. -/
theorem statementsFrom_makes {before lines : List (Nat × String)} (done : Nat)
    (h : Traced (fun cs => InTurn (Makes config) before cs none) g g₁) :
    (statementsFrom config done lines).Keeps Monitor.marks.watch (fun result =>
      Traced (fun cs => InTurn (Makes config) (before ++ lines) cs (fault? result)) g) g₁ := by
  -- By induction on the lines; the calls so far are those of `before`, which all succeeded.
  induction lines generalizing before done g₁ with
  | nil =>
    rw [List.append_nil]
    exact h
  | cons l rest ih =>
    obtain ⟨index, line⟩ := l
    rw [statementsFrom_cons]
    refine ⟨trivial, fun _ => ⟨trivial, fun cancelled => ?_⟩⟩
    cases cancelled with
    | true =>
      have hrefused : Traced (· = [.refused .line (failure config index .cancelled)]) g₁
          (g₁ ++ [.poll .line]) := ⟨_, rfl, rfl⟩
      refine h.trans hrefused fun cs ds hcs hds => ?_
      rw [hds]
      exact hcs.snoc_fault .refused rfl
    | false =>
      have hm := Monitor.marks_ignoresActions.lenient (g := Monitor.marks.note g₁ (.poll .line))
        (E := fun _ _ => True) fun _ _ => trivial
      refine ⟨trivial, fun _ => .bind ((Engine.carryOutLine_keeps hm line).mono ?_)⟩
      intro result g' hg
      subst hg
      have hlogged : Traced (· = [.handled .line ⟨actionName, outcome config index result⟩ []]) g₁
          (Monitor.marks.note (g₁ ++ [.poll .line])
            (.log ⟨actionName, outcome config index result⟩)) :=
        ⟨_, rfl, List.append_assoc ..⟩
      refine ⟨trivial, fun _ => ?_⟩
      -- The line failed, or it joins those that are done.
      split
      · rename_i ho
        refine h.trans hlogged fun cs ds hcs hds => ?_
        rw [hds]
        exact hcs.snoc_fault (.handled result) ho
      · rename_i ho
        rw [← List.singleton_append, ← List.append_assoc]
        refine ih (done + 1) (h.trans hlogged fun cs ds hcs hds => ?_)
        rw [hds]
        exact hcs.snoc (.handled result) (Bool.eq_false_iff.mpr ho)

end Snippet

/-! ## Scripts -/

namespace Engine

variable {τ : Type} {e : Engine}

/-- The calls that executing a script on the run with this name makes, and what they come to. -/
inductive Executes (e : Engine) (run : String) :
    Script → List Call → Except Outcome String → Prop
  /-- The run had been claimed before. -/
  | again {script : Script} : Executes e run script [] (.error (alreadyStarted run))
  | steps {ts : List Step} {cs : List Call} {result : Except Outcome String} :
      InTurn e.Makes ts cs (fault? result) → Executes e run (.steps ts) cs result
  | snippet {source : String} {cs : List Call} {result : Except Outcome String} :
      InTurn (Snippet.Makes e.config) (Snippet.statements source) cs (fault? result) →
      Executes e run (.snippet source) cs result

/-- The calls of a script that was not refused close with its fault. -/
theorem Executes.closes {run : String} {script : Script} {cs : List Call}
    {result : Except Outcome String} (h : e.Executes run script cs result) :
    cs = [] ∧ result = .error (alreadyStarted run) ∨ Call.Closes cs (fault? result) := by
  cases h with
  | again => exact .inl ⟨rfl, rfl⟩
  | steps h => exact .inr (h.closes fun _ _ _ hc => hc.closes)
  | snippet h => exact .inr (h.closes fun _ _ _ hc => hc.closes)

/-- The body of a script makes its calls in turn. -/
theorem body_makes (he : e.registry = .builtins) (run : String) (script : Script) :
    (e.body script).Keeps Monitor.marks.watch
      (fun result => Traced (fun cs => e.Executes run script cs result) []) [] := by
  cases script with
  | snippet source =>
    exact (Snippet.statementsFrom_makes 0 (.refl .nil)).mono fun result g h =>
      h.mono fun cs hcs => .snippet hcs
  | steps ts =>
    refine (stepsFrom_keeps Monitor.marks_ignoresLifecycle.watch (leads_inTurn ts []).guides
      ⟨fun t _ => dispatch_makes he t, [], rfl, .refl .nil⟩).mono fun result g hr => ?_
    cases result with
    | error o => exact hr.mono fun cs hcs => .steps hcs
    | ok message =>
      obtain ⟨-, done, hdone, hr⟩ := hr
      rw [List.append_nil] at hdone
      subst hdone
      exact hr.mono fun cs hcs => .steps hcs

/-- A script makes its calls in turn. -/
theorem execute_makes (he : e.registry = .builtins) (run : String) (script : Script) :
    (e.execute run script).Meets .marks
      (fun result => Traced (fun cs => e.Executes run script cs result) []) [] :=
  Process.meets_iff_keeps.mpr
    (execute_keeps_body Monitor.marks_ignoresLifecycle.watch run (body_makes he run script)
      (.refl .again))

/-- The entries are written with the marks. -/
theorem filterMap_entry?_filter (accesses : List Run.Access) :
    (accesses.filter Run.Access.isMark).filterMap Run.Access.entry? =
      accesses.filterMap Run.Access.entry? := by
  rw [List.filterMap_filter]
  refine List.filterMap_congr fun c _ => ?_
  cases c with
  | poll point => exact ite_self none
  | log entry => exact if_pos rfl
  | _ => exact if_neg Bool.false_ne_true

/-- The history of a script. It has the entries of the calls the script made, in post-order; as long
as nothing fails they are entries of successes, and a failure is found in the entries of the calls
through which the script failed, and in no others. -/
theorem execute_history (config : Config) {world : World τ} (hw : world.LeavesHistory)
    (run : String) (script : Script) {r : Run} (hr : r.options.logsHistory = true) (t : τ) :
    let p := ({ config } : Engine).execute run script
    ∃ calls before chain,
      ({ config } : Engine).Executes run script calls (p.run world r t).1 ∧
      (p.accesses world r t).filter Run.Access.isMark = calls.flatMap Call.trail ∧
      (p.run world r t).2.1.history.toList = r.history.toList ++ calls.flatMap Call.entries ∧
      calls.flatMap Call.entries = before ++ chain.filterMap Call.entry? ∧
      (∀ entry ∈ before, entry.outcome.isError = false) ∧
      (∀ message, (p.run world r t).1 = .ok message → chain = []) ∧
      ∀ o, (p.run world r t).1 = .error o →
        (∀ entry ∈ chain.filterMap Call.entry?, entry.outcome = o) ∧
        (∀ entry ∈ (chain.filterMap Call.entry?).tail,
          entry.action = "condition" ∨ entry.action = "loop") ∧
        ∀ c ∈ calls.getLast?, c.outcome = o ∧ c.FailsThrough chain := by
  intro p
  obtain ⟨calls, hcalls, htrail⟩ :=
    (execute_makes (e := { config }) rfl run script).recorded world r t
  have hhistory : (p.run world r t).2.1.history.toList =
      r.history.toList ++ calls.flatMap Call.entries := by
    rw [Process.history_run hw p hr, ← filterMap_entry?_filter, htrail, List.nil_append,
      ← Call.trailOf_eq, Call.entry?_trailOf, Call.entriesOf_eq]
  rcases hcalls.closes with ⟨rfl, hresult⟩ | ⟨before, chain, hentries, hbefore, hvia⟩
  · -- No call was made, so nothing was written.
    exact ⟨[], [], [], hcalls, htrail, hhistory, rfl, fun _ h => (nomatch h), fun _ _ => rfl,
      fun o _ => ⟨fun _ h => (nomatch h), fun _ h => (nomatch h), fun _ h => nomatch h⟩⟩
  · refine ⟨calls, before, chain, hcalls, htrail, hhistory, hentries, hbefore, fun message h => ?_,
      fun o h => ?_⟩
    · -- A script that succeeds has no chain of failures.
      rw [h] at hvia
      cases hvia
      rfl
    · rw [h] at hvia
      cases hvia with
      | last hlast _ hchain =>
        refine ⟨hchain.entry_outcome, hchain.entry_control, fun c hc => ?_⟩
        obtain rfl := Option.some.inj (hlast.symm.trans hc)
        exact ⟨rfl, hchain⟩

/-- A branch whose second step cannot be carried out, after a step that can. -/
theorem execute_history_branch :
    let merge (v : Value) : Step :=
      ⟨[("action", .str "combine_data"), ("data_sources", .list [v])]⟩
    let choice : Step :=
      ⟨[("action", .str "condition"), ("condition", .bool true),
        ("if_true", .list [(merge (.dict [])).toValue, (merge .null).toValue]),
        ("if_false", .list [])]⟩
    let p := ({} : Engine).execute "branch" (.steps [merge (.dict []), choice])
    let r := Run.create "branch" { logsHistory := true } {}
    let world := World.answering Wait.quiet
    world.LeavesHistory ∧ r.options.logsHistory = true ∧
      (p.run world r ()).2.1.history.toList.map (fun e => (e.action, e.outcome.isError)) =
        [("combine_data", false), ("combine_data", false), ("combine_data", true),
          ("condition", true)] ∧
      ∃ (calls chain : List Call) (o : Outcome), (p.run world r ()).1 = .error o ∧
        (p.accesses world r ()).filter Run.Access.isMark = calls.flatMap Call.trail ∧
        (p.run world r ()).2.1.history.toList = calls.flatMap Call.entries ∧
        ∀ c ∈ calls.getLast?, c.outcome = o ∧ c.FailsThrough chain := by
  intro merge choice p r world
  have hw : world.LeavesHistory := World.answering_leavesHistory _
  obtain ⟨calls, before, chain, -, htrail, hhistory, -, -, -, herror⟩ :=
    execute_history {} hw "branch" (.steps [merge (.dict []), choice]) (r := r) rfl ()
  have hfails : (p.run world r ()).1.isOk = false := by decide +kernel
  refine ⟨hw, rfl, by decide +kernel, calls, chain, ?_⟩
  cases hresult : (p.run world r ()).1 with
  | ok message =>
    rw [hresult] at hfails
    cases hfails
  | error o =>
    refine ⟨o, rfl, htrail, ?_, (herror o hresult).2.2⟩
    dsimp only [p]
    exact hhistory

end Engine

end Stepwise
