import Stepwise.Proofs.Comparison
import Stepwise.Proofs.Recording

/-!
# Observed runs

While a script is executed, others may look at the run: read its lines, subscribe to its output and
receive from it, and clear the output and the history. The process learns nothing of it. Two
executions that differ only in who looks on, in whether there is a history, and in how much is kept
for those who look on go through the same statuses and come to the same.

* `Glance`, `Observer`: what may be done by those who look on, and someone who does it.
* `Surroundings`, `World.observed`: the rest of the world, and a run in it that is looked at.
* `Run.Alike`: runs that are the same for their processes.
* `Process.journal`: what happened to a run; `Happening.recorded`: what the history must be then.
* `Engine.execute_observed`: the law for scripts.
-/

namespace Stepwise

variable {α σ ο ο' : Type}

/-! ## Looking on -/

/-- What may be done to a run by those who look on. -/
inductive Glance where
  | lines
  | subscribe
  /-- A subscriber who stands here takes so many entries. -/
  | receive (position count : Nat)
  | clearOutput
  | clearHistory

namespace Glance

/-- What is seen at a glance. -/
@[reducible] def Reply : Glance → Type
  | lines => List String
  | subscribe => Nat
  | receive .. => List Received × Nat
  | clearOutput | clearHistory => Unit

/-- What is seen at a glance, and the run after it. -/
def perform : (g : Glance) → Run → g.Reply × Run
  | lines, r => (r.output.lines, r)
  | subscribe, r => (r.output.subscribe, r)
  | receive position count, r => (r.output.take position count, r)
  | clearOutput, r => ((), r.clearOutput)
  | clearHistory, r => ((), r.clearHistory)

theorem perform_eq (g : Glance) (r : Run) :
    ∃ output history, (g.perform r).2 = { r with output, history } := by
  cases g with
  | lines | subscribe | receive => exact ⟨r.output, r.history, rfl⟩
  | clearOutput => exact ⟨r.output.clear, r.history, rfl⟩
  | clearHistory => exact ⟨r.output, #[], rfl⟩

end Glance

/-- Someone who looks at a run whenever its process lets others go first. -/
structure Observer (ο : Type) where
  /-- What it does at its next turn. -/
  glances : ο → List Glance
  /-- It has seen something. -/
  told : ο → (g : Glance) → g.Reply → ο

/-- Takes some glances, one after the other. -/
def Observer.look (obs : Observer ο) : List Glance → Run → ο → Run × ο
  | [], r, o => (r, o)
  | g :: gs, r, o => look obs gs (g.perform r).2 (obs.told o g (g.perform r).1)

/-- Those who look on only change what is kept for them. -/
theorem Observer.look_eq (obs : Observer ο) (gs : List Glance) (r : Run) (o : ο) :
    ∃ output history, (obs.look gs r o).1 = { r with output, history } := by
  induction gs generalizing r o with
  | nil => exact ⟨r.output, r.history, rfl⟩
  | cons g gs ih =>
    obtain ⟨_, _, hr⟩ := g.perform_eq r
    obtain ⟨output, history, h⟩ := ih (g.perform r).2 (obs.told o g (g.perform r).1)
    exact ⟨output, history, h.trans (by rw [hr])⟩

/-- When a run is cancelled, and what comes of its waits. -/
structure Surroundings (σ : Type) where
  /-- Whether the run is cancelled before its next access. -/
  cancels : σ → Bool × σ
  /-- What comes of a wait of a run that is cancelled or not, and whether it is cancelled then. -/
  await : (w : Wait) → Bool → σ → w.Answer × Bool × σ

/-- A run in its surroundings, with someone who looks on. -/
def World.observed (env : Surroundings σ) (obs : Observer ο) : World (σ × ο) where
  meanwhile r t :=
    let (cancels, s) := env.cancels t.1
    let (r, o) := obs.look (obs.glances t.2) (r.marked (r.cancelled || cancels)) t.2
    (r, s, o)
  await w r t :=
    let (x, cancels, s) := env.await w r.cancelled t.1
    let (r, o) := obs.look (obs.glances t.2) (r.marked (r.cancelled || cancels)) t.2
    (x, r, s, o)

/-! ## What processes see of a run -/

/-- Outcomes that differ at most in the detail, which is one text cut to `l` and to `l'`
characters. -/
def Outcome.Alike (l l' : Nat) (o o' : Outcome) : Prop :=
  { o with detail := none } = { o' with detail := none } ∧
    (o.detail = o'.detail ∨
      ∃ text, o.detail = some (Redact.cap text l) ∧ o'.detail = some (Redact.cap text l'))

theorem Outcome.Alike.refl {l l' : Nat} (o : Outcome) : o.Alike l l' o := ⟨rfl, .inl rfl⟩

theorem Outcome.Alike.isError {l l' : Nat} {o o' : Outcome} (h : o.Alike l l' o') :
    o.isError = o'.isError := by
  have hverdict := congrArg Outcome.verdict h.1
  exact congrArg (· == Verdict.error) hverdict

/-- Runs that are the same but for their output, for their history and whether they keep one, and
for the details of the outcome that ended them. -/
structure Run.Alike (l l' : Nat) (r r' : Run) : Prop where
  name : r.name = r'.name
  store : r.store = r'.store
  triggers : r.triggers = r'.triggers
  status : r.status = r'.status
  launched : r.launched = r'.launched
  started : r.started = r'.started
  error : Option.Rel (Outcome.Alike l l') r.error r'.error
  cancelled : r.cancelled = r'.cancelled

namespace Run.Alike

variable {l l' : Nat} {r r' : Run}

theorem marked (h : r.Alike l l' r') (b : Bool) : (r.marked b).Alike l l' (r'.marked b) :=
  { h with cancelled := rfl }

/-- Those who look on change nothing that processes see. -/
theorem look (h : r.Alike l l' r') (obs : Observer ο) (obs' : Observer ο') (gs gs' : List Glance)
    (o : ο) (o' : ο') : (obs.look gs r o).1.Alike l l' (obs'.look gs' r' o').1 := by
  obtain ⟨_, _, hr⟩ := obs.look_eq gs r o
  obtain ⟨_, _, hr'⟩ := obs'.look_eq gs' r' o'
  rw [hr, hr']
  exact { h with }

theorem enter (h : r.Alike l l' r') (index : Nat) :
    (r.enter index).Alike l l' (r'.enter index) := by
  unfold Run.enter
  rw [h.status]
  split
  · exact h
  · exact { h with status := rfl }

theorem log (h : r.Alike l l' r') (entry entry' : Run.Entry) :
    (r.log entry).Alike l l' (r'.log entry') := by
  unfold Run.log
  split <;> split <;> exact { h with }

/-- Runs that are alike answer accesses alike, and stay alike. -/
theorem perform (h : r.Alike l l' r') (c : Run.Access) :
    (c.perform r).1 = (c.perform r').1 ∧ (c.perform r).2.Alike l l' (c.perform r').2 := by
  cases c with
  | launch => exact ⟨h.launched, { h with launched := rfl }⟩
  | start => exact ⟨rfl, { h with started := rfl }⟩
  | announce status => exact ⟨rfl, { h with status := rfl }⟩
  | enter index => exact ⟨rfl, h.enter index⟩
  | blame o => exact ⟨rfl, { h with error := .some (.refl o) }⟩
  | poll => exact ⟨h.cancelled, h⟩
  | read => exact ⟨h.store, h⟩
  | assign name v => exact ⟨rfl, { h with store := congrArg (·.insert name v) h.store }⟩
  | print => exact ⟨rfl, { h with }⟩
  | record t => exact ⟨rfl, { h with triggers := congrArg (·.push t) h.triggers }⟩
  | log entry => exact ⟨rfl, h.log entry entry⟩

end Run.Alike

/-- Runs that are alike, with the same to come from their surroundings. -/
def Surroundings.Agree (l l' : Nat) (r : Run) (t : σ × ο) (r' : Run) (t' : σ × ο') : Prop :=
  r.Alike l l' r' ∧ t.1 = t'.1

/-- The surroundings answer runs that are alike alike, whoever looks on. -/
theorem World.observed_simulates (l l' : Nat) (env : Surroundings σ) (obs : Observer ο)
    (obs' : Observer ο') :
    (observed env obs).Simulates (Outcome.Alike l l') (Surroundings.Agree l l')
      (observed env obs') where
  meanwhile := by
    rintro r ⟨s, o⟩ r' ⟨_, o'⟩ ⟨h, rfl⟩
    refine ⟨?_, rfl⟩
    dsimp only [observed]
    rw [h.cancelled]
    exact (h.marked _).look ..
  await w := by
    rintro ⟨h, hs⟩
    dsimp only [observed]
    rw [h.cancelled, hs]
    exact ⟨rfl, (h.marked _).look .., rfl⟩
  perform := fun c ⟨h, ht⟩ => ⟨(h.perform c).1, (h.perform c).2, ht⟩
  log := fun action _ ⟨h, ht⟩ => ⟨h.log .., ht⟩
  blame := fun ho ⟨h, ht⟩ => ⟨{ h with error := .some ho }, ht⟩

/-! ## What happened to a run -/

/-- An access of the process, or a glance of those who look on. -/
inductive Happening where
  | access (c : Run.Access)
  | glance (g : Glance)

namespace Happening

/-- The access of the process. -/
def access? : Happening → Option Run.Access
  | access c => some c
  | glance _ => none

/-- The history is cleared. -/
def clears : Happening → Bool
  | glance .clearHistory => true
  | _ => false

/-- The entry that is recorded. -/
def entry? (h : Happening) : Option Run.Entry := h.access?.bind Run.Access.entry?

/-- The entries that have been recorded since the history was cleared. -/
def recorded (entries : List Run.Entry) (journal : List Happening) : List Run.Entry :=
  journal.foldl (fun entries h => if h.clears then [] else entries ++ h.entry?.toList) entries

theorem recorded_append (entries : List Run.Entry) (before after : List Happening) :
    recorded entries (before ++ after) = recorded (recorded entries before) after :=
  List.foldl_append

end Happening

namespace Process

variable (env : Surroundings σ) (obs : Observer ο)

/-- What happens to a run that is looked at, in its order. -/
def journal : Process α → Run → σ × ο → List Happening
  | done _, _, _ => []
  | access c next, r, t =>
    let turn := (obs.glances t.2).map .glance
    let (r, t) := (World.observed env obs).meanwhile r t
    let (x, r) := c.perform r
    turn ++ .access c :: journal (next x) r t
  | wait w next, r, t =>
    let turn := (obs.glances t.2).map .glance
    let (x, r, t) := (World.observed env obs).await w r t
    turn ++ journal (next x) r t

theorem journal_access (c : Run.Access) (next : c.Answer → Process α) (r : Run) (t : σ × ο) :
    (access c next).journal env obs r t =
      (obs.glances t.2).map .glance ++
        .access c :: (next (c.perform ((World.observed env obs).meanwhile r t).1).1).journal env obs
          (c.perform ((World.observed env obs).meanwhile r t).1).2
          ((World.observed env obs).meanwhile r t).2 := rfl

theorem journal_wait (w : Wait) (next : w.Answer → Process α) (r : Run) (t : σ × ο) :
    (wait w next).journal env obs r t =
      (obs.glances t.2).map .glance ++
        (next ((World.observed env obs).await w r t).1).journal env obs
          ((World.observed env obs).await w r t).2.1
          ((World.observed env obs).await w r t).2.2 := rfl

theorem access?_glances (gs : List Glance) :
    (gs.map Happening.glance).filterMap Happening.access? = [] := by
  induction gs with
  | nil => rfl
  | cons g gs ih => exact ih

/-- The accesses of the process are in the journal. -/
theorem accesses_journal (p : Process α) (r : Run) (t : σ × ο) :
    (p.journal env obs r t).filterMap Happening.access? =
      p.accesses (World.observed env obs) r t := by
  induction p generalizing r t with
  | done a => rfl
  | access c next ih =>
    rw [journal_access, accesses_access, List.filterMap_append, access?_glances, List.nil_append]
    exact congrArg (List.cons c) (ih _ _ _)
  | wait w next ih =>
    rw [journal_wait, accesses_wait, List.filterMap_append, access?_glances, List.nil_append, ih]

theorem entries_journal (p : Process α) (r : Run) (t : σ × ο) :
    (p.journal env obs r t).filterMap Happening.entry? =
      (p.accesses (World.observed env obs) r t).filterMap Run.Access.entry? := by
  rw [← accesses_journal, List.filterMap_filterMap]
  rfl

/-- The history is cleared by those who look on, and they leave the options alone. -/
theorem history_look (gs : List Glance) (r : Run) (o : ο) :
    (obs.look gs r o).1.options = r.options ∧ (obs.look gs r o).1.history.toList =
      Happening.recorded r.history.toList (gs.map .glance) := by
  obtain ⟨_, _, hr⟩ := obs.look_eq gs r o
  refine ⟨by rw [hr], ?_⟩
  clear hr
  induction gs generalizing r o with
  | nil => rfl
  | cons g gs ih =>
    refine (ih (g.perform r).2 _).trans ?_
    cases g with
    | clearHistory => rfl
    | _ => exact congrArg (fun es => Happening.recorded es _) (List.append_nil _).symm

/-- A history has what was recorded since it was cleared. -/
theorem history_journal (p : Process α) {r : Run} (hr : r.options.logsHistory = true) (t : σ × ο) :
    (p.run (World.observed env obs) r t).2.1.history.toList =
      Happening.recorded r.history.toList (p.journal env obs r t) := by
  induction p generalizing r t with
  | done a => rfl
  | access c next ih =>
    obtain ⟨ho, hh⟩ := history_look obs (obs.glances t.2)
      (r.marked (r.cancelled || (env.cancels t.1).1)) t.2
    have hr' : ((World.observed env obs).meanwhile r t).1.options.logsHistory = true :=
      (congrArg _ ho).trans hr
    rw [run_access, journal_access, Happening.recorded_append,
      ih _ ((congrArg _ (Run.options_perform c _)).trans hr'), Run.history_perform c hr']
    exact congrArg (fun entries => Happening.recorded (entries ++ c.entry?.toList) _) hh
  | wait w next ih =>
    obtain ⟨ho, hh⟩ := history_look obs (obs.glances t.2)
      (r.marked (r.cancelled || (env.await w r.cancelled t.1).2.1)) t.2
    have hr' : ((World.observed env obs).await w r t).2.1.options.logsHistory = true :=
      (congrArg _ ho).trans hr
    rw [run_wait, journal_wait, Happening.recorded_append, ih _ hr']
    exact congrArg (fun entries => Happening.recorded entries _) hh

end Process

/-! ## Scripts -/

/-- The line that is printed. -/
def Run.Access.line? : Run.Access → Option String
  | .print line => some line
  | _ => none

theorem Run.Access.Alike.line? {O : Outcome → Outcome → Prop} {c c' : Run.Access}
    (h : c.Alike O c') : c.line? = c'.line? := by
  cases h with
  | refl | log | blame => rfl

theorem Run.Access.lines_eq {O : Outcome → Outcome → Prop} {cs cs' : List Run.Access}
    (h : List.Forall₂ (Run.Access.Alike O) cs cs') : cs.filterMap line? = cs'.filterMap line? := by
  induction h with
  | nil => rfl
  | cons hc _ ih => rw [List.filterMap_cons, List.filterMap_cons, hc.line?, ih]

/-- Entries for the same action, with related outcomes. -/
def Run.Entry.Alike (O : Outcome → Outcome → Prop) (entry entry' : Run.Entry) : Prop :=
  entry.action = entry'.action ∧ O entry.outcome entry'.outcome

theorem Run.Access.Alike.entry? {O : Outcome → Outcome → Prop} (hO : ∀ o, O o o)
    {c c' : Run.Access} (h : c.Alike O c') :
    Option.Rel (Run.Entry.Alike O) c.entry? c'.entry? := by
  cases h with
  | refl =>
    cases c with
    | log entry => exact .some ⟨rfl, hO _⟩
    | _ => exact .none
  | log ho => exact .some ⟨rfl, ho⟩
  | blame => exact .none

namespace Engine

/-- The engine with other limits for what is kept for those who look on. -/
def withLimits (e : Engine) (outputCapacity streamCapacity diagnosticLimit : Nat) : Engine :=
  { e with config := { e.config with outputCapacity, streamCapacity, diagnosticLimit } }

theorem withLimits_follows (e : Engine) (outputCapacity streamCapacity diagnosticLimit : Nat) :
    e.Follows (Outcome.Alike e.config.diagnosticLimit diagnosticLimit) (fun _ => False)
      (e.withLimits outputCapacity streamCapacity diagnosticLimit) where
  registry := rfl
  refl := .refl
  isError := Outcome.Alike.isError
  failures _ _ c := ⟨rfl, .inr ⟨c.diagnostic, rfl, rfl⟩⟩
  resolves _ _ := .refl _
  commandTimeout := rfl
  httpTimeout := rfl
  limit := .inl rfl

theorem not_stopped {α : Type} {result : Except Outcome α} :
    ¬ Stopped (·.Fatal fun _ => False) result := by
  cases result with
  | ok a => exact id
  | error o => exact fun ⟨_, _, _, h⟩ => h

/-- Whoever looks on, and however much is kept for them: the script prints the same lines, writes
the same entries, goes through the same statuses and comes to the same result, with the same
variables and triggers; and a history has what was written since it was cleared. -/
theorem execute_observed (e : Engine) (outputCapacity streamCapacity diagnosticLimit : Nat)
    (env : Surroundings σ) (obs : Observer ο) (obs' : Observer ο') (name : String)
    (script : Script) {r r' : Run} (hr : r.Alike e.config.diagnosticLimit diagnosticLimit r')
    (s : σ) (o : ο) (o' : ο') :
    let O := Outcome.Alike e.config.diagnosticLimit diagnosticLimit
    let p := e.execute name script
    let p' := (e.withLimits outputCapacity streamCapacity diagnosticLimit).execute name script
    let world := World.observed env obs
    let world' := World.observed env obs'
    Concur O (p.run world r (s, o)).1 (p'.run world' r' (s, o')).1 ∧
    (p.run world r (s, o)).2.1.Alike e.config.diagnosticLimit diagnosticLimit
      (p'.run world' r' (s, o')).2.1 ∧
    (p.moments world r (s, o)).map (·.2.status) = (p'.moments world' r' (s, o')).map (·.2.status) ∧
    (p.accesses world r (s, o)).filterMap Run.Access.line? =
      (p'.accesses world' r' (s, o')).filterMap Run.Access.line? ∧
    List.Forall₂ (Run.Entry.Alike O)
      ((p.journal env obs r (s, o)).filterMap Happening.entry?)
      ((p'.journal env obs' r' (s, o')).filterMap Happening.entry?) ∧
    (r.options.logsHistory = true → (p.run world r (s, o)).2.1.history.toList =
      Happening.recorded r.history.toList (p.journal env obs r (s, o))) ∧
    (r'.options.logsHistory = true → (p'.run world' r' (s, o')).2.1.history.toList =
      Happening.recorded r'.history.toList (p'.journal env obs' r' (s, o'))) := by
  intro O p p' world world'
  have hfollows := e.withLimits_follows outputCapacity streamCapacity diagnosticLimit
  have hstart : Surroundings.Agree e.config.diagnosticLimit diagnosticLimit r (s, o) r' (s, o') :=
    ⟨hr, rfl⟩
  -- Neither side is stopped, so the two make the same moments one by one.
  obtain ⟨hresult, ⟨hrun, -⟩, hmoments⟩ := ((hfollows.execute name script).run
    (World.observed_simulates _ _ env obs obs') hstart).resolve_left not_stopped
  have hstatuses : List.Forall₂ Eq ((p.moments world r (s, o)).map (·.2.status))
      ((p'.moments world' r' (s, o')).map (·.2.status)) := by
    rw [List.forall₂_map_left_iff, List.forall₂_map_right_iff]
    exact hmoments.imp fun m m' ⟨_, _, _, h, _⟩ => h.status
  have haccesses : List.Forall₂ (Run.Access.Alike O) (p.accesses world r (s, o))
      (p'.accesses world' r' (s, o')) := by
    rw [Process.accesses_eq_moments, Process.accesses_eq_moments, List.forall₂_map_left_iff,
      List.forall₂_map_right_iff]
    exact hmoments.imp fun m m' h => h.1
  refine ⟨hresult, hrun, ?_, Run.Access.lines_eq haccesses, ?_,
    fun h => p.history_journal env obs h _, fun h => p'.history_journal env obs' h _⟩
  · rwa [List.forall₂_eq_eq_eq] at hstatuses
  · rw [Process.entries_journal, Process.entries_journal]
    exact List.rel_filterMap (fun _ _ h => h.entry? .refl) haccesses

/-- Someone clears the history between two steps, and someone else only subscribes. -/
theorem execute_observed_cleared :
    let script := Script.steps [⟨[("action", .str "print_msg"), ("message", .int 7)]⟩,
      ⟨[("action", .str "combine_data"), ("data_sources", .list [])]⟩]
    let env : Surroundings Unit :=
      { cancels _ := (false, ()), await w _ s := ((w.quiet s).1, false, s) }
    let clearing : Observer Nat :=
      { glances turn := if turn = 8 then [.clearHistory] else [.lines], told turn _ _ := turn + 1 }
    let subscribing : Observer Unit := { glances _ := [.subscribe], told _ _ _ := () }
    let e : Engine := {}
    let r := Run.create "watched" { logsHistory := true } e.config
    let r' := Run.create "watched" { logsHistory := true } (e.withLimits 1 1 10).config
    let p := e.execute "watched" script
    let p' := (e.withLimits 1 1 10).execute "watched" script
    let world := World.observed env clearing
    let world' := World.observed env subscribing
    r.Alike e.config.diagnosticLimit 10 r' ∧
      (p.run world r ((), 0)).2.1.Alike e.config.diagnosticLimit 10
        (p'.run world' r' ((), ())).2.1 ∧
      (p.moments world r ((), 0)).map (·.2.status) =
        (p'.moments world' r' ((), ())).map (·.2.status) ∧
      (p.run world r ((), 0)).2.1.history.toList =
        Happening.recorded r.history.toList (p.journal env clearing r ((), 0)) ∧
      (p'.run world' r' ((), ())).2.1.history.toList =
        Happening.recorded r'.history.toList (p'.journal env subscribing r' ((), ())) ∧
      (p.run world r ((), 0)).2.1.history.toList.map (·.action) = ["combine_data"] ∧
      (p'.run world' r' ((), ())).2.1.history.toList.map (·.action) =
        ["print_msg", "combine_data"] := by
  intro script env clearing subscribing e r r'
  have hr : r.Alike e.config.diagnosticLimit 10 r' := ⟨rfl, rfl, rfl, rfl, rfl, rfl, .none, rfl⟩
  obtain ⟨-, hrun, hstatuses, -, -, hhistory, hhistory'⟩ :=
    execute_observed e 1 1 10 env clearing subscribing "watched" script hr () 0 ()
  exact ⟨hr, hrun, hstatuses, hhistory rfl, hhistory' rfl, by decide +kernel, by decide +kernel⟩

end Engine

end Stepwise
