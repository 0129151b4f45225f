import Stepwise.Proofs.Solitude
import Stepwise.Service

/-!
# Calls and runs that take turns

Calls to a service and the runs it hosts take turns at any moment. A call that looks a run up, or
registers or deletes it, does this at one moment, and what it then does to the run at another: a new
run is found, and may even be deleted, before its variables are set, and it sets out only after
that. Ids come from a generator that may give one again.

* `Service.Task`: what a call does to its run after it has found it.
* `Service.create_eq`, `Service.delete_eq`: the calls of a service in two parts.
* `Hosted.Event`, `Hosted.Happens`, `Hosted.Trace`: what happens at one moment, and in which order.
* `Hosted.Happens.work?_cases`: what an event may do to a run.
* `Hosted.trace_of_course`: a run may go on for some time by itself.
-/

namespace Stepwise

namespace Service

/-! ## The parts of a call -/

/-- What a call has yet to do to the run it is about. -/
inductive Task where
  | seed (i : Nat) (values : Entries Value)
  | cancel (i : Nat)
  | clearOutput (i : Nat)
  | clearHistory (i : Nat)

namespace Task

/-- The run it is about. -/
def job : Task → Nat
  | seed i _ | cancel i | clearOutput i | clearHistory i => i

/-- What it does to the run. -/
def change : Task → Run → Run
  | seed _ values, r => r.seed values
  | cancel _, r => r.cancel
  | clearOutput _, r => r.clearOutput
  | clearHistory _, r => r.clearHistory

/-- The initial variables it sets if it is about this run. -/
def seed? (i : Nat) : Task → Option (Entries Value)
  | seed j values => if j = i then some values else none
  | _ => none

end Task

/-- Does what a call has yet to do. -/
def perform (s : Service) (t : Task) : Service :=
  s.modify t.job fun j => { j with run := t.change j.run }

/-- Deletes a run without cancelling it, and tells which one it was. -/
def unregister (s : Service) (name : String) : Option Nat × Service :=
  (s.registered.lookup name, { s with registered := s.registered.filter (·.1 ≠ name) })

variable {s s' : Service} {name : String} {names : List String} {script : Script}
  {values : Entries Value} {options : Run.Options} {i k : Nat}

theorem unregister_of_none (h : s.registered.lookup name = none) :
    s.unregister name = (none, s) := by
  have hall : s.registered.filter (·.1 ≠ name) = s.registered := by
    refine List.filter_eq_self.mpr fun entry hentry => ?_
    have hne := bne_iff_ne.mp (List.lookup_eq_none_iff.mp h entry hentry)
    exact decide_eq_true hne.symm
  rw [unregister, h, hall]

/-- A run is deleted first, and cancelled then. -/
theorem delete_eq :
    s.delete name = match s.unregister name with
      | (none, s) => (false, s)
      | (some i, s) => (true, s.perform (.cancel i)) := by
  unfold delete find
  cases hname : s.registered.lookup name with
  | none => rw [unregister_of_none hname]
  | some i =>
    rw [unregister, hname]
    rfl

/-- A new run gets the first of the names that is free. -/
theorem create_eq_some {id : String} :
    s.create names script values options = some (id, s') ↔
      names.find? (fun n => (s.registered.lookup n).isNone) = some id ∧
        s' = { s with
          jobs := s.jobs.push ⟨(Run.create id options s.engine.config).seed values,
            s.engine.execute id script, s.now⟩
          registered := (id, s.jobs.size) :: s.registered } := by
  unfold create
  cases names.find? fun n => (s.registered.lookup n).isNone with
  | none => exact ⟨nofun, nofun⟩
  | some n =>
    constructor
    · intro h
      obtain ⟨rfl, rfl⟩ := Prod.mk.inj (Option.some.inj h)
      exact ⟨rfl, rfl⟩
    · rintro ⟨h, rfl⟩
      obtain rfl := Option.some.inj h
      rfl

/-- A run is registered first, and its variables are set then. -/
theorem create_eq :
    s.create names script values options = (s.create names script [] options).map fun created =>
      (created.1, created.2.perform (.seed s.jobs.size values)) := by
  unfold create
  cases names.find? fun n => (s.registered.lookup n).isNone with
  | none => rfl
  | some id =>
    have hpush (j : Job) (f : Job → Job) :
        (s.jobs.push j).modify s.jobs.size f = s.jobs.push (f j) := by
      refine Array.ext_getElem? fun k => ?_
      simp only [Array.getElem?_modify, Array.getElem?_push, eq_comm (a := k)]
      split
      · rfl
      · rfl
    simp only [Option.bind_eq_bind, Option.bind_some, Option.pure_def, Option.map_some, perform,
      modify, Task.job, hpush]
    rfl

theorem find_eq_ok : s.find name = .ok i ↔ s.registered.lookup name = some i := by
  unfold find
  cases s.registered.lookup name with
  | none => exact ⟨nofun, nofun⟩
  | some j => simp

theorem find_eq_error {c : Cause} :
    s.find name = .error c ↔ s.registered.lookup name = none ∧ c = .runNotFound name := by
  unfold find
  cases s.registered.lookup name with
  | none => simp [eq_comm]
  | some j => exact ⟨nofun, nofun⟩

theorem job?_modify (f : Job → Job) :
    (s.modify i f).job? k = if i = k then (s.job? k).map f else s.job? k := Array.getElem?_modify

theorem modify_eq_self {f : Job → Job} (h : ∀ j, s.job? i = some j → f j = j) :
    s.modify i f = s := by
  have hjobs : s.jobs.modify i f = s.jobs := by
    refine Array.ext_getElem? fun k => ?_
    rw [Array.getElem?_modify]
    split
    · next hk =>
      subst hk
      change (s.job? i).map f = s.job? i
      cases hj : s.job? i with
      | none => rfl
      | some j => exact congrArg some (h j hj)
    · rfl
  rw [modify, hjobs]

theorem modify_modify (f g : Job → Job) : (s.modify i f).modify i g = s.modify i (g ∘ f) := by
  have hjobs : (s.jobs.modify i f).modify i g = s.jobs.modify i (g ∘ f) := by
    refine Array.ext_getElem? fun k => ?_
    simp only [Array.getElem?_modify]
    split
    · rw [Option.map_map]
    · rfl
  rw [modify, modify, modify, hjobs]

end Service

/-! ## Events -/

/-- What a caller asks for on a run. -/
inductive Request where
  /-- To see something of it, or that it has ended. -/
  | look
  | clearOutput
  | clearHistory

/-- What it takes to do it once the run has been found. -/
def Request.task? (i : Nat) : Request → Option Service.Task
  | look => none
  | clearOutput => some (.clearOutput i)
  | clearHistory => some (.clearHistory i)

/-- A service, and what calls have yet to do. -/
structure Hosted where
  service : Service
  due : List Service.Task := []

namespace Hosted

open Service (Task)
open Move (Obeys consult)

/-- What happens to a service at one moment. -/
inductive Event where
  /-- From the ids a generator gave, one was chosen for a new run. -/
  | created (i : Nat) (ids : List String) (id : String) (script : Script) (values : Entries Value)
    (options : Run.Options)
  | deleted (id : String) (found : Option Nat)
  | called (request : Request) (id : String) (found : Except Cause Nat)
  | listed (ids : List String)
  /-- A run goes on by itself. -/
  | moved (i : Nat) (move : Move)
  /-- A call does what it had yet to do. -/
  | performed (t : Task)
  | passed

namespace Event

/-- What the call has yet to do. -/
def asks : Event → Option Task
  | created i _ _ _ values _ => some (.seed i values)
  | deleted _ found => found.map .cancel
  | called request _ (.ok i) => request.task? i
  | called _ _ (.error _) | listed _ | moved .. | performed _ | passed => none

/-- The run that is changed. -/
def job? : Event → Option Nat
  | created i .. | moved i _ => some i
  | performed t => some t.job
  | deleted .. | called .. | listed _ | passed => none

/-- Only creating, deleting and clearing have something to do afterwards. -/
theorem asks_cases {event : Event} {t : Task} (h : event.asks = some t) :
    (∃ i ids id script values options, event = .created i ids id script values options ∧
        t = .seed i values) ∨
      (∃ i id, event = .deleted id (some i) ∧ t = .cancel i) ∨
      ∃ i request id, event = .called request id (.ok i) ∧ request.task? i = some t := by
  cases event with
  | created i ids id script values options =>
    exact .inl ⟨i, ids, id, script, values, options, rfl, (Option.some.inj h).symm⟩
  | deleted id found =>
    obtain ⟨i, rfl, rfl⟩ := Option.map_eq_some_iff.mp h
    exact .inr (.inl ⟨i, id, rfl, rfl⟩)
  | called request id found =>
    cases found with
    | error => cases h
    | ok i => exact .inr (.inr ⟨i, request, id, rfl, h⟩)
  | listed | moved | performed | passed => cases h

end Event

/-- What calls have yet to set on a new run. A run sets out when nothing is left of this. -/
def seedsOf (i : Nat) (due : List Task) : List (Entries Value) := due.filterMap (Task.seed? i)

/-- The state of a run, and what is left of its execution. -/
def work? (s : Hosted) (i : Nat) : Option (Run × Process (Except Outcome String)) :=
  (s.service.job? i).map fun j => (j.run, j.process)

/-- The event leads from one moment to the next. -/
inductive Happens : Hosted → Event → Hosted → Prop
  | create {s : Hosted} {ids : List String} {id : String} {script : Script}
      {options : Run.Options} {service : Service} (values : Entries Value) :
      s.service.create ids script [] options = some (id, service) →
      Happens s (.created s.service.jobs.size ids id script values options)
        ⟨service, s.due ++ [.seed s.service.jobs.size values]⟩
  | delete {s : Hosted} {id : String} {found : Option Nat} {service : Service} :
      s.service.unregister id = (found, service) →
      Happens s (.deleted id found) ⟨service, s.due ++ (found.map Task.cancel).toList⟩
  | call {s : Hosted} {id : String} {found : Except Cause Nat} (request : Request) :
      s.service.find id = found →
      Happens s (.called request id found)
        ⟨s.service, s.due ++ (Event.called request id found).asks.toList⟩
  | list {s : Hosted} : Happens s (.listed s.service.names) s
  | access {s : Hosted} {i : Nat} {c : Run.Access}
      {next : c.Answer → Process (Except Outcome String)} {run : Run} :
      s.work? i = some (run, .access c next) → seedsOf i s.due = [] →
      Happens s (.moved i (.access c (c.perform run).1))
        ⟨s.service.modify i fun j =>
          { j with run := (c.perform run).2, process := next (c.perform run).1 }, s.due⟩
  | wait {s : Hosted} {i : Nat} {w : Wait} {next : w.Answer → Process (Except Outcome String)}
      {run : Run} (x : w.Answer) :
      s.work? i = some (run, .wait w next) → seedsOf i s.due = [] →
      Happens s (.moved i (.wait w x))
        ⟨s.service.modify i fun j => { j with process := next x }, s.due⟩
  | perform {s : Hosted} {before after : List Task} {t : Task} : s.due = before ++ t :: after →
      Happens s (.performed t) ⟨s.service.perform t, before ++ after⟩
  /-- Time passes, for the service and for its runs. -/
  | pass {s : Hosted} (now : Nat) (since : Nat → Nat) :
      Happens s .passed ⟨{ s.service with
        now, jobs := s.service.jobs.mapIdx fun i j => { j with since := since i } }, s.due⟩

/-- The events led from the beginning to this moment. -/
inductive Trace (start : Hosted) : List Event → Hosted → Prop
  | start : Trace start [] start
  | snoc {es : List Event} {event : Event} {s s' : Hosted} : Trace start es s →
      Happens s event s' → Trace start (es ++ [event]) s'

/-- A service without runs. -/
def empty (e : Engine) : Hosted := ⟨{ engine := e }, []⟩

variable {es : List Event} {event : Event} {s s' start : Hosted} {i : Nat} {id : String}
  {ids : List String} {script : Script} {values : Entries Value} {options : Run.Options}
  {move : Move} {t : Task}

/-! ## One step -/

theorem work?_eq_some {run : Run} {p : Process (Except Outcome String)} :
    s.work? i = some (run, p) ↔ ∃ since, s.service.job? i = some ⟨run, p, since⟩ := by
  unfold work?
  cases s.service.job? i with
  | none => exact ⟨nofun, nofun⟩
  | some j =>
    constructor
    · intro h
      obtain ⟨rfl, rfl⟩ := Prod.mk.inj (Option.some.inj h)
      exact ⟨j.since, rfl⟩
    · rintro ⟨since, h⟩
      rw [Option.some.inj h]
      rfl

theorem lt_of_work? {work : Run × Process (Except Outcome String)} (h : s.work? i = some work) :
    i < s.service.jobs.size := by
  obtain ⟨since, hj⟩ := work?_eq_some.mp h
  exact (Array.getElem?_eq_some_iff.mp hj).1

theorem work?_modify_self {f : Job → Job} {due : List Task} {run run' : Run}
    {p p' : Process (Except Outcome String)} (hi : s.work? i = some (run, p))
    (hf : ∀ since, (f ⟨run, p, since⟩).run = run' ∧ (f ⟨run, p, since⟩).process = p') :
    work? ⟨s.service.modify i f, due⟩ i = some (run', p') := by
  obtain ⟨since, hj⟩ := work?_eq_some.mp hi
  obtain ⟨rfl, rfl⟩ := hf since
  unfold work?
  rw [Service.job?_modify, if_pos rfl, hj]
  rfl

/-- What happens to one run leaves every other as it is. -/
theorem Happens.work?_of_ne (h : Happens s event s') (hi : event.job? ≠ some i) :
    s'.work? i = s.work? i := by
  cases h with
  | create values hcreate =>
    obtain ⟨-, rfl⟩ := Service.create_eq_some.mp hcreate
    have hne : i ≠ s.service.jobs.size := fun h => hi (congrArg some h.symm)
    exact congrArg (Option.map _) (Array.getElem?_push.trans (if_neg hne))
  | delete hdelete =>
    obtain ⟨-, rfl⟩ := Prod.mk.inj hdelete
    rfl
  | call | list => rfl
  | access | wait | perform =>
    have hne := fun h => hi (congrArg some h)
    exact congrArg (Option.map _) ((Service.job?_modify _).trans (if_neg hne))
  | pass now since =>
    show Option.map _ _[i]? = _
    rw [Array.getElem?_mapIdx, Option.map_map]
    rfl

/-- A new run is registered under the first id that is free, and has done nothing yet. -/
theorem Happens.created (h : Happens s (.created i ids id script values options) s') :
    i = s.service.jobs.size ∧
      ids.find? (fun n => (s.service.registered.lookup n).isNone) = some id ∧
      s'.service.registered = (id, i) :: s.service.registered ∧
      s'.work? i = some (Run.create id options s.service.engine.config,
        s.service.engine.execute id script) ∧
      s'.due = s.due ++ [.seed i values] := by
  cases h with
  | create _ hcreate =>
    obtain ⟨hid, rfl⟩ := Service.create_eq_some.mp hcreate
    refine ⟨rfl, hid, rfl, ?_, rfl⟩
    exact congrArg (Option.map _) (Array.getElem?_push.trans (if_pos rfl))

/-- A run that has set out takes a step of its own. -/
theorem Happens.moved (h : Happens s (.moved i move) s') :
    seedsOf i s.due = [] ∧ ∃ run p run' p', s.work? i = some (run, p) ∧
      s'.work? i = some (run', p') ∧ p.Course run [move] p' run' := by
  cases h with
  | @access _ c next run hi hdue =>
    exact ⟨hdue, run, _, _, _, hi, work?_modify_self hi fun _ => ⟨rfl, rfl⟩, .access .refl⟩
  | @wait _ w next run x hi hdue =>
    exact ⟨hdue, run, _, _, _, hi, work?_modify_self hi fun _ => ⟨rfl, rfl⟩, .wait .refl⟩

theorem Happens.performed (h : Happens s (.performed t) s') :
    s'.work? t.job = (s.work? t.job).map fun work => (t.change work.1, work.2) := by
  cases h with
  | perform =>
    refine (congrArg (Option.map _) ((Service.job?_modify _).trans (if_pos rfl))).trans ?_
    rw [work?, Option.map_map, Option.map_map]
    rfl

/-- Runs stay where they are. -/
theorem Happens.size_le (h : Happens s event s') :
    s.service.jobs.size ≤ s'.service.jobs.size := by
  cases h with
  | create values hcreate =>
    obtain ⟨-, rfl⟩ := Service.create_eq_some.mp hcreate
    exact Array.size_push _ ▸ Nat.le_succ _
  | delete hdelete =>
    obtain ⟨-, rfl⟩ := Prod.mk.inj hdelete
    exact Nat.le_refl _
  | call | list => exact Nat.le_refl _
  | access | wait | perform => exact Nat.le_of_eq Array.size_modify.symm
  | pass => exact Nat.le_of_eq Array.size_mapIdx.symm

theorem Happens.engine_eq (h : Happens s event s') : s'.service.engine = s.service.engine := by
  cases h with
  | create values hcreate =>
    obtain ⟨-, rfl⟩ := Service.create_eq_some.mp hcreate
    rfl
  | delete hdelete =>
    obtain ⟨-, rfl⟩ := Prod.mk.inj hdelete
    rfl
  | call | list | access | wait | perform | pass => rfl

/-- A call adds what it asks for to what is to be done, and what is done is taken away. -/
theorem Happens.due (h : Happens s event s') :
    s'.due = s.due ++ event.asks.toList ∨
      ∃ before t after, event = .performed t ∧ s.due = before ++ t :: after ∧
        s'.due = before ++ after := by
  cases h with
  | create | delete | call => exact .inl rfl
  | list | access | wait | pass => exact .inl (List.append_nil _).symm
  | perform hdue => exact .inr ⟨_, _, _, rfl, hdue, rfl⟩

/-- What an event may do to a run. -/
theorem Happens.work?_cases {run : Run} {p : Process (Except Outcome String)}
    (h : Happens s event s') (hi : s.work? i = some (run, p)) :
    (event.job? ≠ some i ∧ s'.work? i = some (run, p)) ∨
      (∃ move run' p', event = .moved i move ∧ seedsOf i s.due = [] ∧
        s'.work? i = some (run', p') ∧ p.Course run [move] p' run') ∨
      ∃ t, event = .performed t ∧ t.job = i ∧ s'.work? i = some (t.change run, p) := by
  by_cases hevent : event.job? = some i
  · -- Of the events that are about a run, its creation comes before it has any work.
    cases event with
    | created j ids id script values options =>
      obtain ⟨rfl, -⟩ := h.created
      obtain rfl := Option.some.inj hevent
      exact absurd (lt_of_work? hi) (Nat.lt_irrefl _)
    | moved j move =>
      obtain rfl := Option.some.inj hevent
      obtain ⟨hdue, _, _, run', p', hi', hi'', hcourse⟩ := h.moved
      obtain ⟨rfl, rfl⟩ := Prod.mk.inj (Option.some.inj (hi.symm.trans hi'))
      exact .inr (.inl ⟨move, run', p', rfl, hdue, hi'', hcourse⟩)
    | performed t =>
      obtain rfl := Option.some.inj hevent
      refine .inr (.inr ⟨t, rfl, rfl, ?_⟩)
      rw [h.performed, hi]
      rfl
    | deleted | called | listed | passed => cases hevent
  · exact .inl ⟨hevent, (h.work?_of_ne hevent).trans hi⟩

/-- A run that there was not before has just been created. -/
theorem Happens.created_of_work? {run : Run} {p : Process (Except Outcome String)}
    (h : Happens s event s') (hi : s.work? i = none) (hi' : s'.work? i = some (run, p)) :
    ∃ id options, run = Run.create id options s.service.engine.config := by
  by_cases hevent : event.job? = some i
  · cases event with
    | created j ids id script values options =>
      obtain rfl := Option.some.inj hevent
      obtain ⟨-, -, -, hwork, -⟩ := h.created
      exact ⟨id, options, (Prod.mk.inj (Option.some.inj (hi'.symm.trans hwork))).1⟩
    | moved j move =>
      obtain rfl := Option.some.inj hevent
      obtain ⟨-, _, _, _, _, hwork, -⟩ := h.moved
      cases hi.symm.trans hwork
    | performed t =>
      obtain rfl := Option.some.inj hevent
      rw [h.performed, hi] at hi'
      cases hi'
    | deleted | called | listed | passed => cases hevent
  · cases hi.symm.trans ((h.work?_of_ne hevent).symm.trans hi')

theorem Happens.mem_due (h : Happens s (.performed t) s') : t ∈ s.due := by
  cases h with
  | perform hdue => exact hdue ▸ List.mem_append_right _ List.mem_cons_self

/-! ## Traces -/

theorem Trace.trans {later : List Event} (h : Trace start es s) (h' : Trace s later s') :
    Trace start (es ++ later) s' := by
  induction h' with
  | start => rwa [List.append_nil]
  | snoc _ hstep ih =>
    rw [← List.append_assoc]
    exact .snoc ih hstep

/-- A run may take its course without anything else happening. -/
theorem trace_of_course {run run' : Run} {p p' : Process (Except Outcome String)}
    {moves : List Move} (h : p.Course run moves p' run') (hi : s.work? i = some (run, p))
    (hdue : seedsOf i s.due = []) :
    Trace s (moves.map (.moved i))
      ⟨s.service.modify i fun j => { j with run := run', process := p' }, s.due⟩ := by
  induction h generalizing s with
  | refl =>
    obtain ⟨since, hj⟩ := work?_eq_some.mp hi
    rw [Service.modify_eq_self fun j hj' => by cases hj.symm.trans hj'; rfl]
    exact .start
  | @access c next moves q run run' _ ih =>
    have hstep := Happens.access hi hdue
    have hrest := Trace.trans (.snoc .start hstep)
      (ih (work?_modify_self hi fun _ => ⟨rfl, rfl⟩) hdue)
    rwa [Service.modify_modify] at hrest
  | @wait w next x moves q run run' _ ih =>
    have hstep := Happens.wait x hi hdue
    have hrest := Trace.trans (.snoc .start hstep)
      (ih (work?_modify_self hi fun _ => ⟨rfl, rfl⟩) hdue)
    rwa [Service.modify_modify] at hrest

end Hosted

end Stepwise
