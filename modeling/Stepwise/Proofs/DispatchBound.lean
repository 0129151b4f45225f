import Mathlib.Algebra.Ring.Nat
import Stepwise.Proofs.StepTree

/-!
# How often a script dispatches

A loop makes no more passes than the configured limit, unless it sets a limit of its own. So where
no loop does, the text of a script tells how many steps it can dispatch at most.

* `Step.cost`: the bound of a step, with `Step.cost_eq` in terms of the lists of the step.
* `Engine.Spends`: a process adds no more than so much to what is counted.
* `Engine.execute_dispatches_le`: a script dispatches no more steps than its cost, and its history
  grows by no more entries.
-/

namespace Stepwise

namespace Step

/-! ## Cost -/

mutual

/-- The cost of a step given as data. -/
def costOf (limit : Nat) : Value → Nat
  | .dict fields =>
    if (Step.mk fields).action? = some "condition" then
      1 + max (costIn limit "if_true" fields) (costIn limit "if_false" fields)
    else if (Step.mk fields).action? = some "loop" then
      1 + limit * costIn limit "loop_steps" fields
    else 1
  | _ => 0
termination_by structural v => v

/-- The cost of the list of steps in a field. -/
def costIn (limit : Nat) (field : String) : List (String × Value) → Nat
  | [] => 0
  | (name, v) :: rest => if name = field then costOfList limit v else costIn limit field rest
termination_by structural fields => fields

/-- The cost of a list of steps. A list with anything else in it costs nothing. -/
def costOfList (limit : Nat) : Value → Nat
  | .list items => if (ofItems 0 items).isOk then costOfItems limit items else 0
  | _ => 0
termination_by structural v => v

/-- The cost of steps one after the other. -/
def costOfItems (limit : Nat) : List Value → Nat
  | [] => 0
  | v :: vs => costOf limit v + costOfItems limit vs
termination_by structural items => items

end

/-- How many steps a step can dispatch, itself included, where no loop makes more passes than
`limit`. -/
def cost (limit : Nat) (s : Step) : Nat := costOf limit s.toValue

/-- The cost of the steps in a field, if they are steps. -/
def listCost (limit : Nat) (s : Step) (field : String) : Nat :=
  match s.children? field with
  | some (.ok ts) => (ts.map (cost limit)).sum
  | _ => 0

variable {limit : Nat} {s : Step} {field : String}

theorem costOfItems_eq (ts : List Step) :
    costOfItems limit (ts.map toValue) = (ts.map (cost limit)).sum := by
  induction ts with
  | nil => rfl
  | cons t ts ih => rw [List.map_cons, costOfItems, ih]; rfl

theorem costIn_eq (limit : Nat) (field : String) (s : Step) :
    costIn limit field s.fields = s.listCost limit field := by
  obtain ⟨fields⟩ := s
  unfold listCost children? get?
  dsimp only
  -- Both look for the field from the front, so the induction is on the fields.
  induction fields with
  | nil => rfl
  | cons entry rest ih =>
    obtain ⟨name, v⟩ := entry
    rw [costIn, Entries.get?]
    split
    · cases v with
      | list items =>
        rw [costOfList]
        cases hi : ofItems 0 items with
        | ok ts =>
          obtain rfl := ofItems_eq_ok.mp hi
          simp only [hi]
          exact costOfItems_eq ts
        | error index =>
          simp only [hi]
          rfl
      | null | bool b | int n | float x | str text | dict fields => rfl
    · exact ih

theorem cost_eq (limit : Nat) (s : Step) :
    s.cost limit =
      if s.action? = some "condition" then
        1 + max (s.listCost limit "if_true") (s.listCost limit "if_false")
      else if s.action? = some "loop" then 1 + limit * s.listCost limit "loop_steps"
      else 1 := by
  obtain ⟨fields⟩ := s
  rw [cost, toValue, costOf, costIn_eq limit _ ⟨fields⟩, costIn_eq limit _ ⟨fields⟩,
    costIn_eq limit _ ⟨fields⟩]

theorem cost_condition (h : s.action? = some "condition") :
    s.cost limit = 1 + max (s.listCost limit "if_true") (s.listCost limit "if_false") := by
  rw [cost_eq, if_pos h]

theorem cost_loop (h : s.action? = some "loop") :
    s.cost limit = 1 + limit * s.listCost limit "loop_steps" := by
  rw [cost_eq, if_neg (by rw [h]; decide), if_pos h]

theorem cost_pos (limit : Nat) (s : Step) : 1 ≤ s.cost limit := by
  rw [cost_eq]
  split
  · omega
  · split <;> omega

/-- Wherever a loop stands in the step, it sets no limit of its own. -/
inductive Unlimited : Step → Prop
  | mk {s : Step} : (s.action? = some "loop" → s.contains "max_iterations" = false) →
      (∀ t, t.Child s → Unlimited t) → Unlimited s

theorem Unlimited.get?_eq_none (h : s.Unlimited) (ha : s.action? = some "loop") :
    s.get? "max_iterations" = none := by
  cases h with
  | mk h _ => simpa [contains, Entries.contains, get?] using h ha

theorem Unlimited.child {t : Step} (h : s.Unlimited) (ht : t.Child s) : t.Unlimited := by
  cases h with
  | mk _ h => exact h t ht

end Step

/-! ## Counting -/

/-- The number of a kind of access is counted. -/
def Monitor.counting (weight : Run.Access → Nat) : Monitor Nat where
  note n c := n + weight c

/-- A weight under which a dispatched step weighs no more than one, and nothing else weighs
anything. -/
structure Run.Access.Weighs (weight : Run.Access → Nat) : Prop where
  dispatch : ∀ s entry, weight (.poll (.step s)) + weight (.log entry) ≤ 1
  action : ∀ c : Run.Access, c.OfAction → weight c = 0
  lifecycle : ∀ c : Run.Access, c.OfLifecycle → weight c = 0

namespace Engine

variable {weight : Run.Access → Nat} {e : Engine} {s : Step}

theorem counting_ignoresActions (hw : Run.Access.Weighs weight) :
    (Monitor.counting weight).IgnoresActions :=
  fun c hc n => ⟨trivial, by simp only [Monitor.counting, hw.action c hc, Nat.add_zero]⟩

theorem counting_ignoresLifecycle (hw : Run.Access.Weighs weight) :
    (Monitor.counting weight).IgnoresLifecycle :=
  fun c hc n => ⟨trivial, by simp only [Monitor.counting, hw.lifecycle c hc, Nat.add_zero]⟩

/-- The process adds no more than `n` to what is counted. -/
def Spends (weight : Run.Access → Nat) (n : Nat) {α : Type} (p : Process α) : Prop :=
  ∀ count, p.Meets (.counting weight) (fun _ count' => count' ≤ count + n) count

theorem Spends.mono {n n' : Nat} {α : Type} {p : Process α} (h : Spends weight n p) (hn : n ≤ n') :
    Spends weight n' p :=
  fun count => (h count).mono fun _ _ hc => by omega

/-! ## Lists and actions -/

/-- What is left of a bound pays for the steps that are left. -/
theorem leads_of_spends {limit : Nat} (bound : Nat) :
    e.Leads (.counting weight)
      (fun ts n => (∀ t ∈ ts, Spends weight (t.cost limit) (e.dispatch t)) ∧
        n + (ts.map (Step.cost limit)).sum ≤ bound)
      (fun _ n => n ≤ bound) := by
  rintro t ts n ⟨hd, hn⟩
  rw [List.map_cons, List.sum_cons] at hn
  refine (hd t List.mem_cons_self n).mono fun o n' hn' => ?_
  unfold Ends
  split
  · omega
  · exact ⟨fun u hu => hd u (List.mem_cons_of_mem t hu), by omega⟩

theorem runSteps_spends {limit : Nat} {ts : List Step}
    (h : ∀ t ∈ ts, Spends weight (t.cost limit) (e.dispatch t)) :
    Spends weight (ts.map (Step.cost limit)).sum (e.runSteps ts) := by
  intro count
  refine (runSteps_meets (leads_of_spends _) ⟨h, Nat.le_refl _⟩).mono fun r n hr => ?_
  cases r with
  | ok m => exact hr.2
  | error o => exact hr

theorem runField_spends {limit : Nat} {field : String} {ts : List Step}
    (hts : s.children? field = some (.ok ts))
    (h : ∀ t, t.Child s → Spends weight (t.cost limit) (e.dispatch t)) :
    Spends weight (s.listCost limit field) (e.runField s.fields field) := by
  rw [runField_children hts, Step.listCost, hts]
  exact runSteps_spends fun t ht => h t ⟨field, ts, hts, ht⟩

/-- The attempt adds no more than `n`, whether it succeeds or fails. -/
def Tries (weight : Run.Access → Nat) (n : Nat) {α : Type} (x : Attempt α) : Prop :=
  ∀ count, Attempt.Meets (.counting weight) (fun _ count' => count' ≤ count + n)
    (fun _ count' => count' ≤ count + n) count x

variable {lists : String → Process (Except Outcome Nat)} {n : Nat}

theorem choose_tries (hw : Run.Access.Weighs weight) (v : Value)
    (h : ∀ field ∈ ["if_true", "if_false"], Spends weight n (lists field)) :
    Tries weight n (e.carryOut lists (.choose (some v))) := by
  intro count
  refine carryOut_meets_choose (counting_ignoresActions hw) v (fun field hf => ?_)
    fun c _ => Nat.le_add_right count n
  refine (h field hf count).mono fun r count' hr => ?_
  cases r with
  | ok _ => exact fun _ _ => hr
  | error _ => exact hr

/-- The limit of a loop bounds the passes that are paid for. -/
theorem iterate_tries (hw : Run.Access.Weighs weight) (mode : LoopMode) (limit : Option Nat)
    (h : Spends weight n (lists "loop_steps")) :
    Tries weight (limit.getD e.config.maxLoopIterations * n)
      (e.carryOut lists (.iterate mode limit)) := by
  intro count
  generalize hb : limit.getD e.config.maxLoopIterations = bound
  -- After `k` passes at most `k * n` is paid.
  have hpaid k (hk : k ≤ bound) : k * n ≤ bound * n := Nat.mul_le_mul_right n hk
  refine carryOut_meets_iterate (I := fun k paid => paid ≤ count + k * n)
    (counting_ignoresActions hw) mode limit ?_ ?_ ?_ (by omega)
  · intro k hk paid hI
    rw [hb] at hk
    refine (h paid).mono fun r paid' hr => ?_
    have := hpaid (k + 1) hk
    -- Whether the pass fails or not, it costs `n` at most.
    rw [Nat.succ_mul] at this
    cases r with
    | ok _ =>
      show paid' ≤ count + (k + 1) * n
      rw [Nat.succ_mul]
      omega
    | error o =>
      show paid' ≤ count + bound * n
      omega
  · intro k hk paid hI c _
    have := hpaid k (hb ▸ hk)
    show paid ≤ count + bound * n
    omega
  · intro k hk paid hI o _
    have := hpaid k (hb ▸ hk)
    show paid ≤ count + bound * n
    omega

/-- Dispatching a step weighs no more than one, besides what its action does. -/
theorem dispatchWith_spends (hw : Run.Access.Weighs weight)
    (h : ∀ d s', e.Prepared s d s' → Tries weight n (e.handle lists d s')) :
    Spends weight (1 + n) (e.dispatchWith lists s) := by
  intro count
  have hm := counting_ignoresActions hw
  refine dispatchWith_meets trivial (hm _ trivial) (fun c _ => ?_) fun d s' hp => ?_
  · have := hw.dispatch s ⟨"", e.failure none c⟩
    show count + weight _ ≤ _
    omega
  · have hlog o count' (hc : count' ≤ count + weight (.poll (.step s)) + n) :
        Logged (.counting weight) (fun _ count' => count' ≤ count + (1 + n)) d.name o count' := by
      have := hw.dispatch s ⟨d.name, o⟩
      refine ⟨trivial, ?_⟩
      show count' + weight _ ≤ _
      omega
    exact (h d s' hp _).mono (fun o count' hc => hlog o count' hc) fun c count' hc =>
      hlog _ count' hc

/-! ## Steps and scripts -/

/-- What a prepared step of a built-in action adds, if the steps in its lists add their costs. -/
theorem handle_tries {limit : Nat} {k : Action.Kind} {s' : Step} (hw : Run.Access.Weighs weight)
    (hlimit : e.config.maxLoopIterations = limit) (ha : s.action? = some k.name)
    (hp : e.Prepared s (.ofKind k) s') (hu : s.Unlimited)
    (h : ∀ t, t.Child s → Spends weight (t.cost limit) (e.dispatch t)) :
    Tries weight (s.cost limit - 1) (e.handle (e.runField s.fields) (.ofKind k) s') := by
  intro count
  refine handle_meets (counting_ignoresActions hw) (fun c _ => Nat.le_add_right count _)
    (fun o _ => Nat.le_add_right count _) (fun c _ => Nat.le_add_right count _)
    (fun v hk hr => ?_) fun mode own hk hr => ?_
  · -- A condition pays for the branch it chooses.
    subst hk
    obtain ⟨hv, hlists⟩ := Action.read_condition hr
    obtain rfl := Action.choose.inj hv
    have hc : s'.contains "condition" = true := hp.contains (by decide) (by decide)
    obtain ⟨v, hv⟩ := Option.isSome_iff_exists.mp hc
    rw [show s'.get? "condition" = some v from hv]
    refine choose_tries hw v (fun field hf => ?_) count
    obtain ⟨ts, hts⟩ := hlists field hf
    rw [hp.children?_eq hf] at hts
    refine (runField_spends hts h).mono ?_
    rw [Step.cost_condition ha]
    simp only [List.mem_cons, List.not_mem_nil, or_false] at hf
    rcases hf with rfl | rfl <;> omega
  · -- A loop has no limit of its own here, so it is bounded by the one of the engine.
    subst hk
    obtain ⟨_, _, heq, hown, -, ts, hts⟩ := Action.read_loop hr
    cases heq
    obtain rfl : own = none := by
      have hnone := hp.get?_eq_none (by decide) (hu.get?_eq_none ha)
      simp only [Action.loopLimit, Step.number?, Step.given?, Value.given?,
        show Entries.get? s'.fields "max_iterations" = none from hnone] at hown
      cases hown
      rfl
    rw [hp.children?_eq (by decide)] at hts
    rw [Step.cost_loop ha, Nat.add_sub_cancel_left, ← hlimit]
    exact iterate_tries hw mode none (hlimit ▸ runField_spends hts h) count

/-- A step dispatches no more steps than it costs. -/
theorem dispatch_spends (hw : Run.Access.Weighs weight) (he : e.registry = .builtins) (s : Step)
    (hu : s.Unlimited) :
    Spends weight (s.cost e.config.maxLoopIterations) (e.dispatch s) := by
  induction s using Step.induct with
  | step s ih =>
    have hcost := Step.cost_pos e.config.maxLoopIterations s
    rw [dispatch_eq]
    refine Spends.mono (dispatchWith_spends (n := s.cost e.config.maxLoopIterations - 1) hw
      fun d s' hp => ?_) (by omega)
    obtain ⟨k, rfl, ha⟩ := actionOf_builtins he hp.action
    exact handle_tries hw rfl ha hp hu fun t ht => ih t ht (hu.child ht)

/-- The execution of steps adds no more than they cost together. -/
theorem execute_spends (hw : Run.Access.Weighs weight) (he : e.registry = .builtins)
    (run : String) {ss : List Step} (hu : ∀ s ∈ ss, s.Unlimited) :
    Spends weight (ss.map (Step.cost e.config.maxLoopIterations)).sum
      (e.execute run (.steps ss)) := by
  intro count
  have h s (hs : s ∈ ss) := dispatch_spends hw he s (hu s hs)
  refine (execute_meets (counting_ignoresLifecycle hw) (leads_of_spends _) run ⟨h, Nat.le_refl _⟩
    (Nat.le_add_right _ _)).mono fun r n hr => ?_
  cases r with
  | ok m => exact hr.2
  | error o => exact hr

end Engine

/-! ## The bound -/

namespace Run.Access

/-- The access with which every dispatched step begins. -/
def isDispatch : Run.Access → Bool
  | .poll (.step _) => true
  | _ => false

/-- The access that writes an entry of the history. -/
def isLog : Run.Access → Bool
  | .log _ => true
  | _ => false

theorem weighs_isDispatch : Weighs fun c => if c.isDispatch then 1 else 0 where
  dispatch _ _ := Nat.le_refl 1
  action c hc := by cases c with
    | poll point => cases point <;> first | rfl | exact hc.elim
    | _ => rfl
  lifecycle c hc := by cases c <;> first | rfl | exact hc.elim

theorem weighs_isLog : Weighs fun c => if c.isLog then 1 else 0 where
  dispatch _ _ := Nat.le_refl 1
  action c hc := by cases c <;> first | rfl | exact hc.elim
  lifecycle c hc := by cases c <;> first | rfl | exact hc.elim

end Run.Access

theorem foldl_counting (p : Run.Access → Bool) (cs : List Run.Access) (n : Nat) :
    cs.foldl (Monitor.counting fun c => if p c then 1 else 0).note n = n + cs.countP p := by
  induction cs generalizing n with
  | nil => rfl
  | cons c cs ih =>
    rw [List.foldl_cons, ih, List.countP_cons]
    simp only [Monitor.counting]
    omega

/-- Nothing outside the process adds to the history of its run. -/
structure World.KeepsHistory {σ : Type} (world : World σ) : Prop where
  meanwhile : ∀ r w, (world.meanwhile r w).1.history.size ≤ r.history.size
  await : ∀ wait r w, (world.await wait r w).2.1.history.size ≤ r.history.size

theorem Run.Access.size_history_perform (c : Run.Access) (r : Run) :
    (c.perform r).2.history.size ≤ r.history.size + if c.isLog then 1 else 0 := by
  cases c with
  | log entry =>
    show (r.log entry).history.size ≤ r.history.size + 1
    unfold Run.log
    split
    · exact Nat.le_of_eq (Array.size_push entry)
    · omega
  | enter index =>
    show (r.enter index).history.size ≤ _
    unfold Run.enter
    split <;> exact Nat.le_refl _
  | _ => exact Nat.le_refl _

/-- The history grows by the entries that are written. -/
theorem Process.size_history_run {α σ : Type} {world : World σ} (hw : world.KeepsHistory)
    (p : Process α) (r : Run) (w : σ) :
    (p.run world r w).2.1.history.size ≤
      r.history.size + (p.accesses world r w).countP Run.Access.isLog := by
  induction p generalizing r w with
  | done a => exact Nat.le_refl _
  | access c next ih =>
    rw [run_access, accesses_access, List.countP_cons]
    have hm := hw.meanwhile r w
    have hc := c.size_history_perform (world.meanwhile r w).1
    have := ih (c.perform (world.meanwhile r w).1).1 (c.perform (world.meanwhile r w).1).2
      (world.meanwhile r w).2
    omega
  | wait x next ih =>
    rw [run_wait, accesses_wait]
    have hx := hw.await x r w
    have := ih (world.await x r w).1 (world.await x r w).2.1 (world.await x r w).2.2
    omega

namespace Engine

/-- A script in which no loop sets a limit of its own dispatches no more steps than it costs, writes
no more entries of the history, and its history grows by no more. -/
theorem execute_dispatches_le {σ : Type} (config : Config) (run : String) (ss : List Step)
    (hu : ∀ s ∈ ss, s.Unlimited) (world : World σ) (r : Run) (w : σ) :
    let script := ({ config } : Engine).execute run (.steps ss)
    let bound := (ss.map (Step.cost config.maxLoopIterations)).sum
    (script.accesses world r w).countP Run.Access.isDispatch ≤ bound ∧
      (script.accesses world r w).countP Run.Access.isLog ≤ bound ∧
      (world.KeepsHistory →
        (script.run world r w).2.1.history.size ≤ r.history.size + bound) := by
  intro script bound
  have hcount p (hp : Run.Access.Weighs fun c => if p c then 1 else 0) :
      (script.accesses world r w).countP p ≤ bound := by
    have h := (execute_spends hp (e := { config }) rfl run hu 0).result world r w
    rw [foldl_counting] at h
    simpa using h
  have hlog := hcount _ Run.Access.weighs_isLog
  refine ⟨hcount _ Run.Access.weighs_isDispatch, hlog, fun hw => ?_⟩
  exact Nat.le_trans (Process.size_history_run hw script r w) (Nat.add_le_add_left hlog _)

/-- Two passes of a condition in a loop stay below the seven dispatches that a limit of three
allows. -/
theorem execute_dispatches_le_nested :
    let pause : Step := ⟨[("action", .str "delay"), ("seconds", .int 1)]⟩
    let choice : Step :=
      ⟨[("action", .str "condition"), ("condition", .bool true),
        ("if_true", .list [pause.toValue]), ("if_false", .list [])]⟩
    let repeated : Step :=
      ⟨[("action", .str "loop"), ("iterations", .int 2), ("loop_steps", .list [choice.toValue])]⟩
    let config : Config := { maxLoopIterations := 3 }
    let script := ({ config } : Engine).execute "nested" (.steps [repeated])
    let r := Run.create "nested" {} config
    (∀ s ∈ [repeated], s.Unlimited) ∧
      (script.accesses (.answering Wait.quiet) r ()).countP Run.Access.isDispatch ≤ 7 := by
  intro pause choice repeated config script r
  have hpause : pause.Unlimited := by
    refine ⟨fun h => absurd h (by decide), fun t ht => ?_⟩
    obtain ⟨field, items, hf, hi⟩ := ht.mem
    simp [pause] at hf
  have hchoice : choice.Unlimited := by
    refine ⟨fun h => absurd h (by decide), fun t ht => ?_⟩
    obtain ⟨field, items, hf, hi⟩ := ht.mem
    simp only [choice, List.mem_cons, Prod.mk.injEq, reduceCtorEq, and_false, false_or,
      Value.list.injEq, List.not_mem_nil, or_false] at hf
    obtain ⟨-, rfl⟩ | ⟨-, rfl⟩ := hf
    · rw [Step.toValue_inj (List.mem_singleton.mp hi)]
      exact hpause
    · cases hi
  have hu : ∀ s ∈ [repeated], s.Unlimited := by
    intro s hs
    rw [List.mem_singleton.mp hs]
    refine ⟨fun _ => by decide, fun t ht => ?_⟩
    obtain ⟨field, items, hf, hi⟩ := ht.mem
    simp only [repeated, List.mem_cons, Prod.mk.injEq, reduceCtorEq, and_false, false_or,
      Value.list.injEq, List.not_mem_nil, or_false] at hf
    obtain ⟨-, rfl⟩ := hf
    rw [Step.toValue_inj (List.mem_singleton.mp hi)]
    exact hchoice
  exact ⟨hu, (execute_dispatches_le config "nested" [repeated] hu _ r ()).1⟩

end Engine

end Stepwise
