import Stepwise.Proofs.Lifecycle
import Stepwise.Proofs.Tracking

/-!
# The names of variables

Names of variables come from many places: the fields of steps, once their placeholders are replaced,
the lines of snippets, and the actions themselves. Whoever sets a variable has checked its name or
fixed it, so a store in which all names are identifiers stays so. Setting a variable keeps the
places of the others, so a store only ever goes on.

* `Process.SetsOnly`, `Attempt.SetsOnly`: the variables a process may set, with a rule for each way
  to build one.
* `Action.targets`: the variables an action sets itself.
* `Engine.execute_setsOnly`: scripts set identifiers only, by induction over the tree of steps.
* `Store.WellFormed`, `Store.Continues`: what is known of a store, and of a later one.
* `Engine.execute_continues`: the stores of a run.
-/

namespace Stepwise

variable {α β σ : Type}

/-! ## Setting variables -/

/-- If the access sets a variable, `N` holds of its name. -/
def Run.Access.Sets (N : String → Prop) : Run.Access → Prop
  | .assign name _ => N name
  | _ => True

/-- Only variables of whose names `N` holds may be set. -/
def Watch.setting (N : String → Prop) : Watch Unit where
  allows _ c := c.Sets N

namespace Process

/-- Whatever it is answered, the process sets only variables of whose names `N` holds. -/
def SetsOnly (N : String → Prop) (p : Process α) : Prop := p.Keeps (.setting N) (fun _ _ => True) ()

namespace SetsOnly

variable {N : String → Prop} {p : Process α}

theorem bind {f : α → Process β} (h : p.SetsOnly N) (hf : ∀ a, (f a).SetsOnly N) :
    (p.bind f).SetsOnly N :=
  Keeps.bind (h.mono fun a _ _ => hf a)

end SetsOnly

end Process

namespace Attempt

/-- Whatever it is answered, the attempt sets only variables of whose names `N` holds. -/
def SetsOnly (N : String → Prop) (x : Attempt α) : Prop := x.run.SetsOnly N

namespace SetsOnly

variable {N : String → Prop}

theorem pure (a : α) : SetsOnly N (Pure.pure a : Attempt α) := trivial

theorem throw (c : Cause) : SetsOnly N (MonadExcept.throw c : Attempt α) := trivial

theorem settled (x : Except Cause α) : SetsOnly N (settled x) := trivial

theorem access {c : Run.Access} (h : c.Sets N) : SetsOnly N (access c) := ⟨h, fun _ => trivial⟩

theorem wait (w : Wait) : SetsOnly N (wait w) := ⟨trivial, fun _ => trivial⟩

theorem lift {p : Process α} (h : p.SetsOnly N) : SetsOnly N (ExceptT.lift p) :=
  Process.SetsOnly.bind h fun _ => trivial

/-- What comes next need only be right for values that can come up. -/
theorem settled_bind {x : Except Cause α} {f : α → Attempt β}
    (hf : ∀ a, x = .ok a → SetsOnly N (f a)) : SetsOnly N (Attempt.settled x >>= f) := by
  cases x with
  | ok a => exact hf a rfl
  | error c => exact settled (.error c)

theorem bind {x : Attempt α} {f : α → Attempt β} (h : SetsOnly N x) (hf : ∀ a, SetsOnly N (f a)) :
    SetsOnly N (x >>= f) := by
  refine Process.SetsOnly.bind h fun result => ?_
  cases result with
  | ok a => exact hf a
  | error c => exact trivial

end SetsOnly

end Attempt

/-! ## What actions set -/

namespace Action

/-- The variables an action sets itself. -/
def targets : Action → List String
  | assign name _ _ => [name]
  | command .. => ["exit_code", "stdout", "stderr"]
  | iterate .. => ["loop_index"]
  | request r => [r.resultVariable, Http.responseVariable, "status", "response_headers"]
  | merge _ target => [target]
  | print .. | evaluate _ | choose _ | pause .. | record .. => []

theorem identifier_of_checkName {k : Kind} {field name : String}
    (h : checkName k field name = .ok ()) : isIdentifier name = true := by
  unfold checkName at h
  split at h
  · assumption
  · cases h

end Action

/-- The body of a response goes into a variable whose name was checked. -/
theorem Http.Request.ofStep_resultVariable (s : Step) :
    Except.GivesOnly (fun r => isIdentifier r.resultVariable = true) (ofStep s) := by
  unfold ofStep
  refine .bind fun _ => ?_
  extract_lets method timeout resultVariable withUrl withMethod
  have hu (url : Url) :
      Except.GivesOnly (fun r => isIdentifier r.resultVariable = true) (withUrl url) := by
    refine .bind fun headers => .guard (.check (fun _ h => nomatch h) fun hname => ?_)
    refine .guard (.pure ?_)
    simpa using hname
  refine .guard ?_
  dsimp only [withMethod]
  split
  · exact .bind hu
  · exact .bind hu

namespace Action

/-- What an action of these kinds sets has a fixed name, if it sets anything. -/
theorem targets_of_kind {a : Action} (hs : a.kind ≠ .setVar) (hr : a.kind ≠ .httpRequest)
    (hm : a.kind ≠ .combineData) : ∀ name ∈ a.targets, isIdentifier name = true := by
  cases a with
  | assign => exact absurd rfl hs
  | request => exact absurd rfl hr
  | merge => exact absurd rfl hm
  | command =>
    show ∀ name ∈ ["exit_code", "stdout", "stderr"], isIdentifier name = true
    decide
  | iterate =>
    show ∀ name ∈ ["loop_index"], isIdentifier name = true
    decide
  | print | evaluate | choose | pause | record => exact fun _ h => nomatch h

/-- An action is read only from a step in which every variable it sets has a proper name. -/
theorem read_targets (k : Kind) (s : Step) :
    Except.GivesOnly (fun a => ∀ name ∈ a.targets, isIdentifier name = true) (read k s) := by
  intro a h
  have hk := read_kind k s a h
  -- Three actions read and check the name of a variable; those of the others are fixed.
  cases k with
  | setVar =>
    obtain ⟨_, -, h⟩ := Except.bind_eq_ok.mp h
    obtain ⟨_, hname, h⟩ := Except.bind_eq_ok.mp h
    cases h
    exact List.forall_mem_singleton.mpr (identifier_of_checkName hname)
  | httpRequest =>
    obtain ⟨r, hr, rfl⟩ := Except.map_eq_ok.mp h
    refine List.forall_mem_cons.mpr ⟨Http.Request.ofStep_resultVariable s r hr, ?_⟩
    decide
  | combineData =>
    obtain ⟨_, -, h⟩ := Except.bind_eq_ok.mp h
    dsimp only at h
    split at h
    · next name htarget =>
      obtain ⟨_, hname, h⟩ := Except.bind_eq_ok.mp h
      cases h
      rw [htarget]
      exact List.forall_mem_singleton.mpr (identifier_of_checkName hname)
    · next htarget =>
      cases h
      rw [Option.eq_none_iff_forall_ne_some.mpr htarget]
      show ∀ name ∈ ["combined_data"], isIdentifier name = true
      decide
  | printMsg | executeCommand | eval | condition | loop | delay | trigger =>
    exact targets_of_kind (by rw [hk]; decide) (by rw [hk]; decide) (by rw [hk]; decide)

end Action

namespace Statement

theorem identifier_of_assigned? {cs name expression : List Char}
    (h : assigned? cs = some (name, expression)) : isIdentifierChars name = true := by
  unfold assigned? at h
  dsimp only at h
  split at h
  · split at h
    · next hc =>
      cases h
      simp only [Bool.and_eq_true] at hc
      exact hc.1.1
    · cases h
  · cases h

/-- A line that assigns a variable gives it a proper name. -/
theorem identifier_of_ofLine {cs name expression : List Char}
    (h : ofLine cs = .assign name expression) : isIdentifier (String.ofList name) = true := by
  unfold ofLine at h
  split at h
  · cases h
  · split at h
    · next hassigned =>
      cases h
      rw [isIdentifier, String.toList_ofList]
      exact identifier_of_assigned? hassigned
    · cases h

end Statement

/-! ## What scripts set -/

namespace Engine

open Attempt (SetsOnly)

variable {N : String → Prop} {e : Engine} {lists : String → Process (Except Outcome Nat)}

theorem valueOf_setsOnly (v : Value) (evaluated : Bool) : SetsOnly N (valueOf v evaluated) := by
  unfold valueOf
  split
  · exact .bind (.access trivial) fun store => .settled _
  · exact .pure v

theorem report_setsOnly (code : Option Nat) (out err : List UInt8)
    (h : ∀ name ∈ ["exit_code", "stdout", "stderr"], N name) :
    SetsOnly N (report code out err) := by
  unfold report
  refine .bind (.access trivial) fun _ => .bind (.access trivial) fun _ => ?_
  refine .bind (.access (h _ (by decide))) fun _ => .bind (.access (h _ (by decide))) fun _ => ?_
  exact .bind (.access (h _ (by decide))) fun _ => .pure _

theorem carryOutCommand_setsOnly (spec : Command.Spec) (shell : Bool) (timeout : Option Float)
    (h : ∀ name ∈ ["exit_code", "stdout", "stderr"], N name) :
    SetsOnly N (e.carryOutCommand spec shell timeout) := by
  unfold carryOutCommand
  dsimp only
  split
  · exact .settled _
  · refine .bind (.wait _) fun x => ?_
    cases x with
    | ended code out err => exact report_setsOnly code out err h
    | unstarted | timedOut | interrupted => exact .throw _

theorem store_setsOnly (r : Http.Request) (response : Http.Response)
    (h : ∀ name ∈ (Action.request r).targets, N name) :
    SetsOnly N (Engine.store r response) := by
  simp only [Action.targets, List.forall_mem_cons] at h
  obtain ⟨hresult, hresponse, hstatus, hheaders, -⟩ := h
  have hend (o : Outcome) : SetsOnly N (do
      Attempt.access (.assign "status" (.int response.status))
      Attempt.access (.assign "response_headers" (Http.headersValue response.headers))
      return o) :=
    .bind (.access hstatus) fun _ => .bind (.access hheaders) fun _ => .pure o
  unfold Engine.store
  refine .bind (.settled _) fun body => .bind (.access hresult) fun _ => ?_
  dsimp only
  split
  · exact .bind (.access hresponse) fun _ => hend _
  · exact hend _

theorem carryOutRequest_setsOnly (r : Http.Request)
    (h : ∀ name ∈ (Action.request r).targets, N name) :
    SetsOnly N (e.carryOutRequest r) := by
  unfold carryOutRequest
  split
  · exact .settled _
  · split
    · exact .throw _
    · refine .bind (.wait _) fun x => ?_
      cases x with
      | answered response => exact store_setsOnly r response h
      | failed | interrupted => exact .throw _

theorem mayPass_setsOnly (mode : LoopMode) (done : Nat) : SetsOnly N (e.mayPass mode done) := by
  have hpass : SetsOnly N (e.anotherPass mode done) := by
    cases mode with
    | counted count => exact .pure _
    | holding condition =>
      refine .bind (.access trivial) fun store => .bind (.settled _) fun v => ?_
      exact .bind (.access trivial) fun store => .settled _
  unfold mayPass
  refine .bind (.access trivial) fun cancelled => ?_
  cases cancelled with
  | true => exact .bind (.throw _) fun _ => hpass
  | false => exact hpass

theorem passes_setsOnly (mode : LoopMode) (limit : Nat) {body : Process (Except Outcome Nat)}
    (hbody : body.SetsOnly N) (hindex : N "loop_index") (done left : Nat) :
    SetsOnly N (e.passes mode limit body done left) := by
  have hbegin (done : Nat) : SetsOnly N (beginPass mode done) := by
    cases mode with
    | counted count => exact .access hindex
    | holding condition => exact .pure _
  induction left generalizing done with
  | zero =>
    rw [passes_zero]
    refine .bind (mayPass_setsOnly mode done) fun b => ?_
    cases b with
    | true => exact .throw _
    | false => exact .pure _
  | succ left ih =>
    rw [passes_succ]
    refine .bind (mayPass_setsOnly mode done) fun b => ?_
    cases b with
    | true =>
      refine .bind (hbegin done) fun _ => .bind (.lift hbody) fun result => ?_
      cases result with
      | ok n => exact ih (done + 1)
      | error o => exact .pure _
    | false => exact .pure _

/-- An action sets its own variables, and those that the steps in its lists set. -/
theorem carryOut_setsOnly (hl : ∀ field, (lists field).SetsOnly N) (a : Action)
    (ha : ∀ name ∈ a.targets, N name) : SetsOnly N (e.carryOut lists a) := by
  cases a with
  | assign name v evaluated =>
    refine .bind (valueOf_setsOnly v evaluated) fun v => ?_
    exact .bind (.access (ha _ List.mem_cons_self)) fun _ => .pure _
  | print message evaluated =>
    refine .bind (valueOf_setsOnly message evaluated) fun v => ?_
    exact .bind (.access trivial) fun _ => .pure _
  | command spec shell timeout => exact carryOutCommand_setsOnly spec shell timeout ha
  | evaluate expression => exact .bind (valueOf_setsOnly _ true) fun v => .pure _
  | choose condition =>
    cases condition with
    | none => exact .throw _
    | some v =>
      refine .bind (.access trivial) fun store => .bind (.settled _) fun holds => ?_
      refine .bind (.lift (hl _)) fun result => ?_
      cases result with
      | ok n => exact .pure _
      | error o => exact .pure _
  | iterate mode limit =>
    refine .bind (passes_setsOnly mode _ (hl _) (ha _ List.mem_cons_self) 0 _) fun result => ?_
    cases result with
    | ok n => exact .pure _
    | error o => exact .pure _
  | pause seconds evaluated =>
    refine .bind (valueOf_setsOnly seconds evaluated) fun v => .bind (.settled _) fun x => ?_
    refine .bind (.wait _) fun lasted => ?_
    cases lasted with
    | true => exact .pure _
    | false => exact .throw _
  | record trigger message => exact .bind (.access trivial) fun _ => .pure _
  | request r => exact carryOutRequest_setsOnly r ha
  | merge sources target =>
    refine .bind (.access trivial) fun store => .bind (.settled _) fun entries => ?_
    exact .bind (.access (ha _ List.mem_cons_self)) fun _ => .pure _

theorem handle_setsOnly (hl : ∀ field, (lists field).SetsOnly N)
    (hN : ∀ name, isIdentifier name = true → N name) (d : Descriptor) (s : Step) :
    SetsOnly N (e.handle lists d s) := by
  unfold handle
  split
  · exact .pure _
  · next k _ =>
    refine .settled_bind fun a ha => carryOut_setsOnly hl a fun name hname => ?_
    exact hN name (Action.read_targets k s a ha name hname)

theorem dispatchWith_setsOnly (hl : ∀ field, (lists field).SetsOnly N)
    (hN : ∀ name, isIdentifier name = true → N name) (s : Step) :
    (e.dispatchWith lists s).SetsOnly N := by
  have hprepare : SetsOnly N (e.prepare s) := by
    refine .bind (.access trivial) fun cancelled => ?_
    have hrest : SetsOnly N (do
        let d ← Attempt.settled (e.actionOf s)
        let store ← Attempt.access .read
        return (d, ← Attempt.settled (e.ready d store s))) :=
      .bind (.settled _) fun d => .bind (.access trivial) fun store => .bind (.settled _) fun s' =>
        .pure _
    cases cancelled with
    | true => exact .bind (.throw _) fun _ => hrest
    | false => exact hrest
  refine .bind hprepare fun result => ?_
  cases result with
  | error cause => exact trivial
  | ok p =>
    refine .bind (handle_setsOnly hl hN p.1 p.2) fun result => ?_
    cases result with
    | error cause => exact ⟨trivial, fun _ => trivial⟩
    | ok o => exact ⟨trivial, fun _ => trivial⟩

/-- What the lists of a step set is set by the step. -/
theorem setsOnly_hereditary (hN : ∀ name, isIdentifier name = true → N name) (e : Engine) :
    e.Hereditary (·.SetsOnly N) (·.SetsOnly N) where
  step _ s hl := dispatchWith_setsOnly hl hN s
  nothing := trivial
  done _ := trivial
  next p rest hp hrest := by
    refine .bind hp fun o => ?_
    split
    · exact trivial
    · exact hrest

/-- A step sets identifiers only, however deep its lists go. -/
theorem dispatch_setsOnly (hN : ∀ name, isIdentifier name = true → N name) (e : Engine)
    (s : Step) : (e.dispatch s).SetsOnly N := (setsOnly_hereditary hN e).dispatch s

theorem stepsFrom_setsOnly (hN : ∀ name, isIdentifier name = true → N name) (ts : List Step)
    (index : Nat) : (e.stepsFrom index ts).SetsOnly N := by
  induction ts generalizing index with
  | nil => exact trivial
  | cons t ts ih =>
    refine .bind (p := .ofAccess (.enter index)) ⟨trivial, fun _ => trivial⟩ fun _ => ?_
    refine .bind (dispatch_setsOnly hN e t) fun o => ?_
    split
    · exact trivial
    · exact ih (index + 1)

/-- A line sets the variable it assigns, which has a proper name. -/
theorem carryOutLine_setsOnly (hN : ∀ name, isIdentifier name = true → N name) (line : String) :
    SetsOnly N (Snippet.carryOutLine line) := by
  refine .bind (.settled _) fun _ => ?_
  cases hs : Statement.ofLine line.toList with
  | print arguments =>
    refine .bind (.access trivial) fun store => .bind (.settled _) fun v => ?_
    exact .bind (.access trivial) fun _ => .pure _
  | assign name expression =>
    refine .bind (.access trivial) fun store => .bind (.settled _) fun v => ?_
    exact .bind (.access (hN _ (Statement.identifier_of_ofLine hs))) fun _ => .pure _
  | evaluate expression =>
    exact .bind (.access trivial) fun store => .bind (.settled _) fun v => .pure _

theorem statementsFrom_setsOnly (hN : ∀ name, isIdentifier name = true → N name) (config : Config)
    (lines : List (Nat × String)) (done : Nat) :
    (Snippet.statementsFrom config done lines).SetsOnly N := by
  induction lines generalizing done with
  | nil => exact trivial
  | cons entry rest ih =>
    obtain ⟨index, line⟩ := entry
    rw [Snippet.statementsFrom_cons]
    refine ⟨trivial, fun _ => ⟨trivial, fun cancelled => ?_⟩⟩
    cases cancelled with
    | true => exact trivial
    | false =>
      refine ⟨trivial, fun _ => Process.SetsOnly.bind (carryOutLine_setsOnly hN line) ?_⟩
      intro result
      refine ⟨trivial, fun _ => ?_⟩
      split
      · exact trivial
      · exact ih (done + 1)

theorem body_setsOnly (hN : ∀ name, isIdentifier name = true → N name) (e : Engine)
    (script : Script) : (e.body script).SetsOnly N := by
  cases script with
  | snippet source => exact statementsFrom_setsOnly hN e.config _ 0
  | steps ts => exact stepsFrom_setsOnly hN ts 0

/-- A script sets identifiers only. -/
theorem execute_setsOnly (e : Engine) (run : String) (script : Script) :
    (e.execute run script).SetsOnly fun name => isIdentifier name = true := by
  rw [execute_eq]
  refine ⟨trivial, fun launched => ?_⟩
  cases launched with
  | true => exact trivial
  | false =>
    refine ⟨trivial, fun _ => ⟨trivial, fun _ => ?_⟩⟩
    refine Process.SetsOnly.bind (body_setsOnly (fun _ => id) e script) fun result => ?_
    cases result with
    | ok message => exact ⟨trivial, fun _ => trivial⟩
    | error o => exact ⟨trivial, fun _ => ⟨trivial, fun _ => trivial⟩⟩

end Engine

/-! ## Stores -/

/-- All names are identifiers, and none stands twice. -/
structure Store.WellFormed (store : Store) : Prop where
  identifiers : ∀ name ∈ store.names, isIdentifier name = true
  nodup : store.names.Nodup

/-- The names of `store` are the first names of `later`, in their order. -/
def Store.Continues (store later : Store) : Prop := store.names <+: later.names

namespace Store

variable {store later last : Store}

theorem Continues.trans (h : store.Continues later) (h' : later.Continues last) :
    store.Continues last := List.IsPrefix.trans h h'

theorem continues_insert (store : Store) (name : String) (v : Value) :
    store.Continues (store.insert name v) := by
  unfold Continues
  rw [Entries.names_insert]
  split
  · exact List.prefix_rfl
  · exact List.prefix_append _ _

theorem WellFormed.insert (h : store.WellFormed) {name : String} (hname : isIdentifier name = true)
    (v : Value) : WellFormed (store.insert name v) := by
  refine ⟨?_, Entries.nodup_insert h.nodup name v⟩
  rw [Entries.names_insert]
  split
  · exact h.identifiers
  · exact List.forall_mem_append.mpr ⟨h.identifiers, List.forall_mem_singleton.mpr hname⟩

theorem WellFormed.extend (h : store.WellFormed) {values : Entries Value}
    (hvalues : ∀ name ∈ values.names, isIdentifier name = true) :
    WellFormed (store.extend values) := by
  induction values generalizing store with
  | nil => exact h
  | cons entry rest ih =>
    obtain ⟨hname, hrest⟩ := List.forall_mem_cons.mp hvalues
    exact ih (h.insert hname entry.2) hrest

end Store

/-- Nothing outside the process touches the variables of its run. -/
structure World.LeavesStore (world : World σ) : Prop where
  meanwhile : ∀ r s, (world.meanwhile r s).1.store = r.store
  await : ∀ w r s, (world.await w r s).2.1.store = r.store

theorem World.OnlyCancels.leavesStore {world : World σ} (hw : world.OnlyCancels) :
    world.LeavesStore where
  meanwhile r s := (hw.meanwhile r s).elim (congrArg Run.store) (congrArg Run.store)
  await w r s := (hw.await w r s).elim (congrArg Run.store) (congrArg Run.store)

/-- An access sets one variable, or leaves the variables as they are. -/
theorem Run.store_perform (c : Access) (r : Run) :
    (∃ name v, c = .assign name v ∧ (c.perform r).2.store = r.store.insert name v) ∨
      (c.perform r).2.store = r.store := by
  cases c with
  | assign name v => exact .inl ⟨name, v, rfl, rfl⟩
  | enter index =>
    right
    show (r.enter index).store = _
    unfold enter
    split
    · rfl
    · rfl
  | log entry =>
    right
    show (r.log entry).store = _
    unfold log
    split
    · rfl
    · rfl
  | _ => exact .inr rfl

/-- One access keeps the variables well formed, and every variable in its place. -/
theorem Run.Access.Sets.perform {c : Run.Access} (hc : c.Sets fun name => isIdentifier name = true)
    {r : Run} (hr : r.store.WellFormed) :
    (c.perform r).2.store.WellFormed ∧ r.store.Continues (c.perform r).2.store := by
  rcases Run.store_perform c r with ⟨name, v, rfl, h⟩ | h
  · rw [h]
    exact ⟨hr.insert hc v, Store.continues_insert _ _ _⟩
  · rw [h]
    exact ⟨hr, List.prefix_rfl⟩

namespace Process

variable {world : World σ}

/-- The variables of a run at the beginning of a process, and after each of its accesses. -/
def stores (world : World σ) (p : Process α) (r : Run) (s : σ) : List Store :=
  r.store :: (p.moments world r s).map (·.2.store)

theorem stores_access (c : Run.Access) (next : c.Answer → Process α) (r : Run) (s : σ) :
    (access c next).stores world r s =
      r.store :: (next (c.perform (world.meanwhile r s).1).1).stores world
        (c.perform (world.meanwhile r s).1).2 (world.meanwhile r s).2 := rfl

theorem stores_wait (hw : world.LeavesStore) (w : Wait) (next : w.Answer → Process α) (r : Run)
    (s : σ) :
    (wait w next).stores world r s =
      (next (world.await w r s).1).stores world (world.await w r s).2.1
        (world.await w r s).2.2 := by
  rw [stores, stores, moments_wait, hw.await]

/-- A process that sets identifiers only keeps the variables well formed, and every variable in its
place, from any moment to any later one. -/
theorem SetsOnly.stores {p : Process α} (h : p.SetsOnly fun name => isIdentifier name = true)
    (hw : world.LeavesStore) {r : Run} (hr : r.store.WellFormed) (s : σ) :
    (∀ store ∈ p.stores world r s, store.WellFormed) ∧
      (p.stores world r s).Pairwise Store.Continues ∧
      (p.stores world r s).getLast? = some (p.run world r s).2.1.store := by
  induction p generalizing r s with
  | done a => exact ⟨List.forall_mem_singleton.mpr hr, List.pairwise_singleton _ _, rfl⟩
  | access c next ih =>
    rw [← hw.meanwhile r s] at hr
    obtain ⟨hwell, hfirst⟩ := h.1.perform hr
    obtain ⟨hall, hpairs, hlast⟩ := ih _ (h.2 _) hwell (world.meanwhile r s).2
    rw [stores_access]
    rw [hw.meanwhile r s] at hr hfirst
    refine ⟨List.forall_mem_cons.mpr ⟨hr, hall⟩, List.pairwise_cons.mpr ⟨?_, hpairs⟩, hlast⟩
    -- What comes later continues the variables after this access, and these continue those before.
    refine List.forall_mem_cons.mpr ⟨hfirst, fun store hstore => ?_⟩
    exact hfirst.trans (List.rel_of_pairwise_cons hpairs hstore)
  | wait w next ih =>
    rw [stores_wait hw]
    rw [← hw.await w r s] at hr
    exact ih _ (h.2 _) hr _

end Process

/-- The variables of a run are well formed from its creation to its end, and at every moment they
begin with those of every earlier moment. -/
theorem Engine.execute_continues {world : World σ} (hw : world.LeavesStore) (e : Engine)
    (name : String) (script : Script) (options : Run.Options) (config : Config)
    {initial : Entries Value} (h : ∀ name ∈ initial.names, isIdentifier name = true) (s : σ) :
    let r := (Run.create name options config).seed initial
    let p := e.execute name script
    (∀ store ∈ p.stores world r s, store.WellFormed) ∧
      (p.stores world r s).Pairwise Store.Continues ∧
      (p.stores world r s).getLast? = some (p.run world r s).2.1.store := by
  have hempty : Store.WellFormed [] := ⟨List.forall_mem_nil _, List.nodup_nil⟩
  exact (execute_setsOnly e name script).stores hw (hempty.extend h) s

/-- A loop sets a variable that is there and one that is new, until it is cancelled in its second
pass. -/
theorem Engine.execute_continues_loop :
    let sets (name : String) (n : Int) : Value :=
      .dict [("action", .str "set_var"), ("name", .str name), ("value", .int n)]
    let loop : Step := ⟨[("action", .str "loop"), ("iterations", .int 2),
      ("loop_steps", .list [sets "b" 1, sets "c" 2])]⟩
    let e : Engine := {}
    let initial : Entries Value := [("a", .null), ("b", .null)]
    let r := (Run.create "naming" {} e.config).seed initial
    let p := e.execute "naming" (.steps [loop])
    let world := World.cancelling Wait.quiet
    world.LeavesStore ∧ (∀ name ∈ initial.names, isIdentifier name = true) ∧
      (∀ store ∈ p.stores world r (14, ()), store.WellFormed) ∧
      (p.stores world r (14, ())).Pairwise Store.Continues ∧
      ((p.stores world r (14, ())).map Entries.names).eraseDups =
        [["a", "b"], ["a", "b", "loop_index"], ["a", "b", "loop_index", "c"]] := by
  intro sets loop e initial r p world
  have hw : world.LeavesStore := (World.cancelling_mayCancel Wait.quiet).onlyCancels.leavesStore
  have hnames : ∀ name ∈ initial.names, isIdentifier name = true := by decide
  obtain ⟨hwell, hpairs, -⟩ :=
    execute_continues hw e "naming" (.steps [loop]) {} e.config hnames (14, ())
  exact ⟨hw, hnames, hwell, hpairs, by decide +kernel⟩

end Stepwise
