import Stepwise.Proofs.Issues

/-!
# The check of a script and its runs

The check looks at a script without running it. It is right about what it can see: where it finds no
issue, no step of any run fails for want of an action, a required field or a list of steps, and a
step to which an issue is attached fails whenever it is dispatched.

* `Cause.Structural`: the causes that the check rules out.
* `Step.Clean`: a step without issues, in its lists included.
* `Engine.dispatch_faulty`: a step with a fault fails.
* `Engine.dispatch_clean`: a clean step dispatches clean steps only, and is sound.
* `Engine.issues_agree`: both for the issues of a script.
-/

namespace Stepwise

/-- A failure for want of an action, of a required field, or of a list of steps. -/
def Cause.Structural : Cause → Prop
  | .missingAction | .unknownAction _ => True
  | .missingField action field =>
    ∃ k : Action.Kind, k.name = action ∧ field ∈ (Descriptor.ofKind k).required
  | .invalidField _ field reason =>
    field ∈ childFields ∨ (field = "step" ∧ ∃ name, reason = "missing field `" ++ name ++ "`")
  | _ => False

namespace Action

/-- The lists of steps that an action holds are raw. -/
theorem Kind.mem_raw_of_declares (k : Kind) :
    ∀ field ∈ childFields, (Descriptor.ofKind k).declares field = true → field ∈ k.raw := by
  cases k <;> decide

/-- The lists of steps that an action holds are required. -/
theorem Kind.mem_required_of_declares (k : Kind) :
    ∀ field ∈ childFields, (Descriptor.ofKind k).declares field = true →
      field ∈ (Descriptor.ofKind k).required := by
  cases k <;> decide

/-- What passes its check has lists of steps where the action holds some. -/
theorem children_of_check {k : Kind} {s : Step} (h : check k s = .ok ()) :
    ∀ field ∈ childFields, (Descriptor.ofKind k).declares field = true →
      ∃ ts, s.children? field = some (.ok ts) := by
  have hnone : ∀ {k' : Kind}, (∀ field ∈ childFields, (Descriptor.ofKind k').declares field = false) →
      ∀ field ∈ childFields, (Descriptor.ofKind k').declares field = true →
        ∃ ts, s.children? field = some (.ok ts) :=
    fun hk field hf hd => absurd hd (by rw [hk field hf]; decide)
  -- Only three actions declare lists of steps; the check of each reads its own.
  cases k with
  | condition =>
    obtain ⟨a, ha, -⟩ := Except.map_eq_ok.mp h
    have hmem : ∀ field ∈ childFields, (Descriptor.ofKind .condition).declares field = true →
        field ∈ ["if_true", "if_false"] := by decide
    exact fun field hf hd => (read_condition ha).2 field (hmem field hf hd)
  | loop =>
    obtain ⟨a, ha, -⟩ := Except.map_eq_ok.mp h
    obtain ⟨-, -, -, -, -, hts⟩ := read_loop ha
    have hmem : ∀ field ∈ childFields, (Descriptor.ofKind .loop).declares field = true →
        field = "loop_steps" := by decide
    exact fun field hf hd => hmem field hf hd ▸ hts
  | trigger =>
    obtain ⟨a, ha, -⟩ := Except.map_eq_ok.mp h
    obtain ⟨ts, hts, -⟩ := Except.bind_eq_ok.mp ha
    have hmem : ∀ field ∈ childFields, (Descriptor.ofKind .trigger).declares field = true →
        field = "steps" := by decide
    exact fun field hf hd => hmem field hf hd ▸ ⟨ts, children_of_ok hts⟩
  | setVar | printMsg | executeCommand | eval | delay | httpRequest | combineData =>
    exact hnone (by decide)

end Action

variable {s t : Step} {e : Engine}

theorem mem_listFields_builtins {k : Action.Kind} {field : String}
    (ha : s.action? = some k.name) :
    field ∈ listFields .builtins s ↔
      field ∈ childFields ∧ (Descriptor.ofKind k).declares field = true := by
  rw [listFields, ha, Option.bind_some, Registry.find?_builtins_name]
  exact List.mem_filter

namespace Engine

/-! ## Steps with a fault -/

/-- A step with a fault is never prepared. -/
theorem not_prepared_of_faulty {d : Descriptor} {s' : Step} (he : e.registry = .builtins)
    (h : Faulty .builtins s) : ¬e.Prepared s d s' := by
  intro hp
  obtain ⟨k, rfl, ha⟩ := actionOf_builtins he hp.action
  cases h with
  | own hi =>
    rw [ownIssues, ha] at hi
    dsimp only at hi
    rw [Registry.find?_builtins_name] at hi
    dsimp only at hi
    rw [hp.missing?_eq_none] at hi
    cases hi
  | list hf hx =>
    obtain ⟨hf, hd⟩ := (mem_listFields_builtins ha).mp hf
    obtain ⟨ts, hts⟩ := Action.children_of_check hp.checked _ hf hd
    rw [hp.children?_eq (k.mem_raw_of_declares _ hf hd), hx] at hts
    cases hts

/-- A step with a fault fails in every state of its run, whatever happens outside. -/
theorem dispatch_faulty {σ : Type} (he : e.registry = .builtins) (h : Faulty .builtins s)
    (world : World σ) (r : Run) (w : σ) : ((e.dispatch s).run world r w).1.isError = true := by
  have hm : (e.dispatch s).Meets ({} : Monitor Unit) (fun o _ => o.isError = true) () := by
    rw [dispatch_eq]
    refine dispatchWith_meets trivial (fun _ => ⟨trivial, rfl⟩) (fun _ _ => rfl) fun d s' hp => ?_
    exact absurd hp (not_prepared_of_faulty he h)
  exact hm.result world r w

end Engine

/-! ## Steps without issues -/

/-- No issue is found in the step, its lists included. -/
def Step.Clean (s : Step) : Prop := ∃ path, ∀ i, i ∉ stepIssues .builtins path s.toValue

namespace Step.Clean

theorem action (h : s.Clean) :
    ∃ k : Action.Kind, s.action? = some k.name ∧ (Descriptor.ofKind k).missing? s = none := by
  obtain ⟨path, h⟩ := h
  have hown : ∀ i, i ∉ ownIssues .builtins path s := fun i hi => h i (mem_stepIssues.mpr (.inl hi))
  unfold ownIssues at hown
  split at hown
  · exact absurd List.mem_cons_self (hown _)
  · rename_i name hn
    split at hown
    · exact absurd List.mem_cons_self (hown _)
    · rename_i d hd
      obtain ⟨k, rfl, rfl⟩ := Registry.find?_builtins.mp hd
      split at hown
      · exact absurd List.mem_cons_self (hown _)
      · rename_i hm
        exact ⟨k, hn, hm⟩

theorem missing?_eq_none (h : s.Clean) {k : Action.Kind} (ha : s.action? = some k.name) :
    (Descriptor.ofKind k).missing? s = none := by
  obtain ⟨k', ha', hm⟩ := h.action
  rw [Action.Kind.name_inj (Option.some.inj (ha.symm.trans ha'))]
  exact hm

/-- The lists of a clean step hold clean steps. -/
theorem children (h : s.Clean) {k : Action.Kind} (ha : s.action? = some k.name) {field : String}
    (hf : field ∈ childFields) (hd : (Descriptor.ofKind k).declares field = true) :
    ∃ ts, s.children? field = some (.ok ts) ∧ ∀ t ∈ ts, t.Clean := by
  have hc := Engine.contains_of_missing?_eq_none (h.missing?_eq_none ha)
    (k.mem_required_of_declares field hf hd)
  obtain ⟨path, h⟩ := h
  have hlist : ∀ i, i ∉ fieldIssues .builtins (s.action?.getD "") field (path ++ "." ++ field)
      s.fields := by
    refine fun i hi => h i (mem_stepIssues.mpr (.inr ⟨field, ?_, hi⟩))
    exact (mem_listFields_builtins ha).mpr ⟨hf, hd⟩
  obtain ⟨v, hv⟩ : ∃ v, s.get? field = some v := Option.isSome_iff_exists.mp hc
  -- The field is there, so it holds a list; and an issue of an entry would be one of the step.
  cases hx : s.children? field with
  | none =>
    unfold Step.children? at hx
    split at hx
    · rename_i hn
      rw [hv] at hn
      cases hn
    · cases hx
    · cases hx
  | some children =>
    cases children with
    | error index => exact absurd (mem_fieldIssues.mpr (.inr ⟨v, index, hv, hx, rfl⟩)) (hlist _)
    | ok ts =>
      refine ⟨ts, rfl, fun t ht => ?_⟩
      obtain ⟨n, hn⟩ := List.getElem?_of_mem ht
      exact ⟨_, fun i hi => hlist i (mem_fieldIssues.mpr (.inl ⟨ts, n, t, hx, hn, hi⟩))⟩

end Step.Clean

/-! ## Sound failures -/

/-- `c` can be the cause of a failure of `s` though nothing is wrong with it: it is not structural,
and a missing field is one that a loop or a trigger, as its action sees it, needs one of. -/
structure Engine.Excused (e : Engine) (s : Step) (c : Cause) : Prop where
  notStructural : ¬c.Structural
  missing : ∀ action field, c = .missingField action field →
    ∃ (k : Action.Kind) (store : Store) (s' : Step), e.HandedOver (.ofKind k) store s s' ∧
      k.name = action ∧ Action.Unset s' k field

/-- An error that comes out of dispatching `s` is that of a step in it, and has an excuse. -/
def Engine.SoundOutcome (e : Engine) (s : Step) (o : Outcome) : Prop :=
  o.isError = true →
    ∃ (t : Step) (action : Option String) (c : Cause),
      t.Within s ∧ o = e.failure action c ∧ e.Excused t c

namespace Engine

theorem SoundOutcome.child {o : Outcome} (h : e.SoundOutcome t o) (ht : t.Child s) :
    e.SoundOutcome s o := by
  intro ho
  obtain ⟨u, action, c, hu, hc⟩ := h ho
  exact ⟨u, action, c, .child hu ht, hc⟩

theorem Excused.sound {c : Cause} (h : e.Excused s c) (action : Option String) :
    e.SoundOutcome s (e.failure action c) := fun _ => ⟨s, action, c, .refl, rfl, h⟩

theorem Excused.ofRun {c : Cause} (h : c.OfRun) : e.Excused s c := by
  refine ⟨fun hs => ?_, fun action field hc => ?_⟩
  · cases c with
    | invalidField action field reason =>
      have hlate : ∀ p ∈ lateFields, p.2 ∉ childFields ∧ p.2 ≠ "step" := by decide
      obtain ⟨p, hp, heq⟩ := List.mem_map.mp h
      obtain ⟨hc, hstep⟩ := hlate p hp
      obtain rfl : p.2 = field := congrArg Prod.snd heq
      obtain hs | ⟨hs, -⟩ := hs
      · exact hc hs
      · exact hstep hs
    | missingAction | unknownAction | missingField => exact h
    | _ => exact hs
  · rw [hc] at h
    exact h.elim

/-- A setting that an action lacks is none of its required fields. -/
theorem not_required_of_unset {k : Action.Kind} {field : String} (h : Action.Unset s k field) :
    field ∉ (Descriptor.ofKind k).required := by
  cases h with
  | loop => decide
  | text _ hf =>
    simp only [List.mem_cons, Prod.mk.injEq, List.not_mem_nil, or_false] at hf
    rcases hf with ⟨-, rfl⟩ | ⟨-, rfl⟩ <;> decide
  | interval => decide

theorem Excused.ofFields {k : Action.Kind} {store : Store} {s' : Step} {c : Cause}
    (hs : e.HandedOver (.ofKind k) store s s') (h : c.OfFields k s') : e.Excused s c := by
  refine ⟨fun hc => ?_, fun action field hc => ?_⟩
  · cases c with
    | missingField action field =>
      obtain ⟨hk, hu⟩ := h
      obtain ⟨k', hk', hf⟩ := hc
      obtain rfl := Action.Kind.name_inj (hk.trans hk'.symm)
      exact not_required_of_unset hu hf
    | invalidField action field reason =>
      obtain hc | ⟨hstep, name, hname⟩ := hc
      · exact h.1 hc
      · exact h.2 hstep name hname
    | missingAction | unknownAction => exact h
    | _ => exact hc
  · rw [hc] at h
    exact ⟨k, store, s', hs, h⟩

/-! ## Clean steps -/

/-- A clean step is complete as its action sees it. -/
theorem complete_of_clean {k : Action.Kind} {store : Store} {s' : Step} (hc : s.Clean)
    (ha : s.action? = some k.name) (hs : e.HandedOver (.ofKind k) store s s') :
    k.Complete s' := by
  refine ⟨fun f hf hreq => ?_, fun field hf hd => ?_⟩
  · have hname : f.name ∈ (Descriptor.ofKind k).required :=
      List.mem_map_of_mem (List.mem_filter.mpr ⟨hf, hreq⟩)
    have hne : ∀ f ∈ k.fields, f.name ≠ "action" := by cases k <;> decide
    exact hs.contains (hne f hf) (declares_of_required hname)
      (contains_of_missing?_eq_none (hc.missing?_eq_none ha) hname)
  · obtain ⟨ts, hts, -⟩ := hc.children ha hf hd
    have hraw := k.mem_raw_of_declares field hf hd
    obtain ⟨hne, -⟩ := k.declares_of_raw field hraw
    exact ⟨ts, (hs.children?_raw hne hd (List.contains_iff_mem.mpr hraw)).trans hts⟩

/-- Why a clean step is not prepared has an excuse. -/
theorem excused_of_unprepared {c : Cause} (he : e.registry = .builtins) (hc : s.Clean)
    (h : e.Unprepared s c) : e.Excused s c := by
  cases h with
  | cancelled => exact .ofRun trivial
  | action h =>
    obtain ⟨k, ha, hm⟩ := hc.action
    have hd : e.actionOf s = .ok (.ofKind k) :=
      actionOf_eq_ok.mpr ⟨_, ha, he ▸ Registry.find?_builtins_name k, hm⟩
    rw [hd] at h
    cases h
  | ready hd h =>
    obtain ⟨k, rfl, ha⟩ := actionOf_builtins he hd
    refine ready_failsOnly (fun v => ?_) (fun s' hs => ?_) c h
    · exact (Template.resolve_failsOnly _ _ v).mono fun c hc => .ofRun hc.ofRun
    · exact (Action.check_failsOnly (complete_of_clean hc ha hs)).mono fun c hf => .ofFields hs hf

/-- Only clean steps are dispatched. -/
def cleanOnly : Monitor Unit where
  allows _ c := ∀ s, c = .poll (.step s) → s.Clean

theorem cleanOnly_ignoresActions : cleanOnly.IgnoresActions := by
  intro c hc g
  refine ⟨fun s hs => ?_, rfl⟩
  rw [hs] at hc
  exact hc.elim

theorem cleanOnly_ignoresLifecycle : cleanOnly.IgnoresLifecycle := by
  intro c hc g
  refine ⟨fun s hs => ?_, rfl⟩
  rw [hs] at hc
  exact hc.elim

theorem leads_clean {P : Step → Prop} {F : Outcome → Prop}
    (h : ∀ t, P t → (e.dispatch t).Meets cleanOnly (fun o _ => e.SoundOutcome t o) ())
    (hF : ∀ t o, P t → e.SoundOutcome t o → F o) :
    e.Leads cleanOnly (fun ts _ => ∀ t ∈ ts, P t) (fun o _ => F o) := by
  intro t ts g hts
  have ht := hts t List.mem_cons_self
  refine (h t ht).mono fun o g' ho => ?_
  unfold Ends
  split
  · exact hF t o ht ho
  · exact fun u hu => hts u (List.mem_cons_of_mem t hu)

theorem sound_of_not_isError {o : Outcome} (h : o.isError = false) : e.SoundOutcome s o := by
  intro ho
  rw [h] at ho
  cases ho

theorem logged_sound (action : String) {o : Outcome} (h : e.SoundOutcome s o) :
    Logged cleanOnly (fun o _ => e.SoundOutcome s o) action o () :=
  ⟨fun u hu => (by cases hu), h⟩

/-- A prepared step that is clean has excuses only, if its lists have. -/
theorem handle_clean {k : Action.Kind} {s' : Step} {lists : String → Process (Except Outcome Nat)}
    (hc : s.Clean) (ha : s.action? = some k.name) (hp : e.Prepared s (.ofKind k) s')
    (hl : ∀ field ∈ childFields, (Descriptor.ofKind k).declares field = true →
      (lists field).Meets cleanOnly
        (Attempt.Either (fun _ _ => True) fun o _ => e.SoundOutcome s o) ()) :
    Attempt.Meets cleanOnly (Logged cleanOnly (fun o _ => e.SoundOutcome s o) k.name)
      (fun c => Logged cleanOnly (fun o _ => e.SoundOutcome s o) k.name
        (e.failure (some k.name) c))
      () (e.handle lists (.ofKind k) s') := by
  obtain ⟨store, hs⟩ := hp.handed
  have hrun (c : Cause) (h : c.OfRun) := logged_sound k.name
    ((Excused.ofRun (e := e) (s := s) h).sound (some k.name))
  have hgood (o : Outcome) (h : o.isError = false) :=
    logged_sound (e := e) (s := s) k.name (sound_of_not_isError h)
  refine handle_meets cleanOnly_ignoresActions (fun c h => ?_) hgood hrun
    (fun v hk hr => ?_) fun mode limit hk hr => ?_
  · -- The fields are refused for what they hold, which is an excuse.
    have hf := Action.read_failsOnly (complete_of_clean hc ha hs) c h
    exact logged_sound k.name ((Excused.ofFields hs hf).sound (some k.name))
  · subst hk
    obtain ⟨hv, -⟩ := Action.read_condition hr
    obtain rfl := Action.choose.inj hv
    have hc : s'.contains "condition" = true := hp.contains (by decide) (by decide)
    obtain ⟨v, hv⟩ := Option.isSome_iff_exists.mp hc
    rw [show s'.get? "condition" = some v from hv]
    -- A condition ends as its branch does.
    refine carryOut_meets_choose cleanOnly_ignoresActions v (fun field hf => ?_) hrun
    have hmem : ∀ f ∈ ["if_true", "if_false"],
        f ∈ childFields ∧ (Descriptor.ofKind .condition).declares f = true := by decide
    refine (hl field (hmem field hf).1 (hmem field hf).2).mono fun r _ h => ?_
    cases r with
    | ok n => exact hgood
    | error o => exact logged_sound _ h
  · subst hk
    -- A loop ends as its first pass that fails does, and nothing has to hold between the passes.
    refine carryOut_meets_iterate (I := fun _ _ => True) cleanOnly_ignoresActions mode limit
      (fun n _ g _ => ?_) (fun n _ g _ => hrun) (fun n _ g _ => hgood) trivial
    refine (hl "loop_steps" (by decide) (by decide)).mono fun r _ h => ?_
    cases r with
    | ok n => exact trivial
    | error o => exact logged_sound _ h

/-- A clean step dispatches clean steps only, and its failure has an excuse. The induction is on the
tree of steps: the lists of a clean step hold clean steps again. -/
theorem dispatch_clean (he : e.registry = .builtins) (s : Step) (hc : s.Clean) :
    (e.dispatch s).Meets cleanOnly (fun o _ => e.SoundOutcome s o) () := by
  induction s using Step.induct with
  | step s ih =>
    rw [dispatch_eq]
    refine dispatchWith_meets (fun u hu => ?_) (cleanOnly_ignoresActions _ trivial)
      (fun c h => (excused_of_unprepared he hc h).sound _) fun d s' hp => ?_
    · cases hu
      exact hc
    · obtain ⟨k, rfl, ha⟩ := actionOf_builtins he hp.action
      refine handle_clean hc ha hp fun field hf hd => ?_
      obtain ⟨ts, hts, hclean⟩ := hc.children ha hf hd
      have hleads := leads_clean (P := fun t => t.Child s ∧ t.Clean) (F := e.SoundOutcome s)
        (fun t ht => ih t ht.1 ht.2) fun t o ht ho => ho.child ht.1
      rw [runField_children hts]
      refine (runSteps_meets hleads fun t ht => ⟨⟨field, ts, hts, ht⟩, hclean t ht⟩).mono
        fun r _ h => ?_
      cases r with
      | ok n => exact trivial
      | error o => exact h

/-- The steps of a script without issues are clean. -/
theorem clean_of_issues_eq_nil {ss : List Step}
    (h : Script.issues .builtins (.steps ss) = []) : ∀ s ∈ ss, s.Clean := by
  intro s hs
  obtain ⟨n, hn⟩ := List.getElem?_of_mem hs
  refine ⟨entryPath "steps" (0 + n), fun i hi => ?_⟩
  have : i ∈ Script.issues .builtins (.steps ss) := mem_itemIssues.mpr ⟨n, s, hn, hi⟩
  rw [h] at this
  cases this

/-- What the check of a script says of its runs. Where it finds no issue, whatever step is
dispatched in whatever run fails with an excuse only; and every issue is attached to a step, and
every step it is attached to fails whenever it is dispatched. -/
theorem issues_agree (config : Config) (ss : List Step) :
    let e : Engine := { config }
    (Script.issues .builtins (.steps ss) = [] →
      ∀ {σ : Type} (world : World σ) (run : String) (r : Run) (w : σ) (s : Step),
        .poll (.step s) ∈ (e.execute run (.steps ss)).accesses world r w →
          ∀ {τ : Type} (world : World τ) (r : Run) (w : τ),
            e.SoundOutcome s ((e.dispatch s).run world r w).1) ∧
    ∀ i ∈ Script.issues .builtins (.steps ss),
      (∃ path s, Placed ss path s ∧ i.Attached path) ∧
      ∀ path s, Placed ss path s → i.Attached path →
        ∀ {σ : Type} (world : World σ) (r : Run) (w : σ),
          ((e.dispatch s).run world r w).1.isError = true := by
  intro e
  refine ⟨fun h σ world run r w s hs τ world' r' w' => ?_, fun i hi => ?_⟩
  · have hleads := leads_clean (e := e) (P := Step.Clean) (F := fun _ => True)
      (fun t ht => dispatch_clean rfl t ht) fun _ _ _ _ => trivial
    have hm := execute_meets (g := ()) cleanOnly_ignoresLifecycle hleads run
      (clean_of_issues_eq_nil h) trivial
    have hc := hm.allowed_of_mem world r w hs s rfl
    exact (dispatch_clean rfl s hc).result world' r' w'
  · obtain ⟨path, s, hs, ha, hf⟩ := exists_faulty_of_mem_issues hi
    refine ⟨⟨path, s, hs, ha⟩, fun path' t ht ha' σ world r w => ?_⟩
    obtain rfl := ha.unique ha' hs ht
    exact dispatch_faulty rfl hf world r w

/-- A loop without issues, and a condition with an unknown action in it. -/
theorem issues_agree_twice :
    let print : Step := ⟨[("action", .str "print_msg"), ("message", .str "done")]⟩
    let sound : Step :=
      ⟨[("action", .str "loop"), ("iterations", .int 1), ("loop_steps", .list [print.toValue])]⟩
    let unknown : Step := ⟨[("action", .str "absent")]⟩
    let faulty : Step :=
      ⟨[("action", .str "condition"), ("condition", .bool true),
        ("if_true", .list [unknown.toValue]), ("if_false", .list [])]⟩
    let e : Engine := {}
    let r := Run.create "checked" {} e.config
    let path := entryPath (entryPath "steps" 0 ++ "." ++ "if_true") 0
    (Script.issues .builtins (.steps [sound]) = [] ∧
      .poll (.step sound) ∈
        (e.execute "checked" (.steps [sound])).accesses (.answering Wait.quiet) r () ∧
      e.SoundOutcome sound ((e.dispatch sound).run (.answering Wait.quiet) r ()).1) ∧
    (⟨path, .unknownAction "absent"⟩ ∈ Script.issues .builtins (.steps [faulty]) ∧
      Placed [faulty] path unknown ∧
      ((e.dispatch unknown).run (.answering Wait.quiet) r ()).1.isError = true) := by
  intro print sound unknown faulty e r path
  have hnil : Script.issues .builtins (.steps [sound]) = [] := rfl
  have hpoll : .poll (.step sound) ∈
      (e.execute "checked" (.steps [sound])).accesses (.answering Wait.quiet) r () :=
    .tail _ (.tail _ (.tail _ (.tail _ (.head _))))
  have hi : ⟨path, .unknownAction "absent"⟩ ∈ Script.issues .builtins (.steps [faulty]) := .head _
  have hp : Placed [faulty] path unknown := .inner (.top rfl) (by decide) rfl rfl
  refine ⟨⟨hnil, hpoll, ?_⟩, hi, hp, ?_⟩
  · exact (issues_agree {} [sound]).1 hnil _ _ _ _ _ hpoll _ r ()
  · exact ((issues_agree {} [faulty]).2 _ hi).2 path unknown hp (.inl rfl) _ r ()

end Engine

end Stepwise
