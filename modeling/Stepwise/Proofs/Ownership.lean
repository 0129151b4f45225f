import Stepwise.Proofs.Naming
import Stepwise.Proofs.Requests

/-!
# What actions own

An action that runs no other steps works out what it will do, and then does it: it sets variables of
its own, prints lines and records triggers. What a successful step has done to its run is its
effect, which is told by the action, the values it came to and the answers it waited for. All other
variables keep their values and their places.

* `Attempt.Ensures`: what is known of the moves of an attempt that has succeeded.
* `Effect`, `Action.Leaves`: what is done to a run, and what actions can do.
* `Engine.carryOut_does`: an action that succeeds has done just that.
* `Store.SameBut`: variables that keep their values and places.
* `Action.Kind.Owns`: changes of a run that keep to what a kind of action owns.
* `Engine.dispatch_owns`: what a successful step has done.
-/

namespace Stepwise

variable {α τ : Type}

/-! ## Attempts that succeed -/

/-- The moves are noted. -/
def Watch.noting : Watch (List Move) where
  answered moves c x := moves ++ [.access c x]
  awaited moves w x := moves ++ [.wait w x]

theorem Watch.answered_noting (moves : List Move) (c : Run.Access) (x : c.Answer) :
    noting.answered moves c x = moves ++ [.access c x] := rfl

theorem Watch.awaited_noting (moves : List Move) (w : Wait) (x : w.Answer) :
    noting.awaited moves w x = moves ++ [.wait w x] := rfl

theorem Watch.foldl_noting (moves before : List Move) :
    moves.foldl noting.after before = before ++ moves := by
  induction moves generalizing before with
  | nil => exact (List.append_nil before).symm
  | cons move rest ih =>
    cases move with
    | access c x => exact (ih _).trans (List.append_assoc before [_] rest)
    | wait w x => exact (ih _).trans (List.append_assoc before [_] rest)

/-- When the attempt has succeeded after these moves, `P` holds of what it gives and of all its
moves. -/
def Attempt.Ensures (P : α → List Move → Prop) (before : List Move) (x : Attempt α) : Prop :=
  x.Keeps .noting P (fun _ _ => True) before

/-- In every world, `P` holds of what an attempt has given and of its moves. -/
theorem Attempt.Ensures.moves {P : α → List Move → Prop} {x : Attempt α} (h : x.Ensures P [])
    {world : World τ} {r : Run} {t : τ} {a : α} (ha : (x.run.run world r t).1 = .ok a) :
    P a (x.run.moves world r t) := by
  have hend := Process.Keeps.path h (Process.path_moves world x.run r t)
  rw [ha, Watch.foldl_noting] at hend
  exact hend

/-! ## Changes -/

/-- The access that a move is, if it changes the run. -/
def Move.change? : Move → Option Run.Access
  | .access c _ => if c.isChange then some c else none
  | .wait .. => none

/-- The changes that are among the moves, in their order. -/
def changes (moves : List Move) : List Run.Access := moves.filterMap Move.change?

theorem changes_append (moves more : List Move) :
    changes (moves ++ more) = changes moves ++ changes more := List.filterMap_append

theorem changes_access (c : Run.Access) (x : c.Answer) (moves : List Move) :
    changes (.access c x :: moves) = if c.isChange then c :: changes moves else changes moves := by
  rw [changes, List.filterMap_cons, Move.change?]
  cases c.isChange with
  | true => rfl
  | false => rfl

theorem filter_accesses (world : World τ) (p : Process α) (r : Run) (t : τ) :
    (p.accesses world r t).filter Run.Access.isChange = changes (p.moves world r t) := by
  induction p generalizing r t with
  | done a => rfl
  | access c next ih =>
    rw [Process.accesses_access, List.filter_cons, ih]
    exact (changes_access c _ _).symm
  | wait w next ih => exact ih _ _ _

/-- What is done to a run. -/
structure Effect where
  /-- Variables that are set, in their order. -/
  writes : Entries Value := []
  lines : List String := []
  triggers : List Trigger := []

namespace Effect

/-- The changes that make up an effect. -/
def accesses (f : Effect) : List Run.Access :=
  f.lines.map .print ++ f.writes.map (fun entry => .assign entry.1 entry.2) ++
    f.triggers.map .record

/-- The run with the effect. -/
def apply (f : Effect) (r : Run) : Run :=
  { r with
    store := r.store.extend f.writes
    output := f.lines.foldl Output.push r.output
    triggers := r.triggers ++ f.triggers.toArray }

theorem after_prints (lines : List String) (r : Run) :
    r.after (lines.map .print) = { r with output := lines.foldl Output.push r.output } := by
  induction lines generalizing r with
  | nil => rfl
  | cons line rest ih => exact ih (r.print line)

theorem after_assigns (writes : Entries Value) (r : Run) :
    r.after (writes.map fun entry => .assign entry.1 entry.2) =
      { r with store := r.store.extend writes } := by
  induction writes generalizing r with
  | nil => rfl
  | cons entry rest ih => exact ih (r.assign entry.1 entry.2)

theorem after_records (triggers : List Trigger) (r : Run) :
    r.after (triggers.map .record) = { r with triggers := r.triggers ++ triggers.toArray } := by
  induction triggers generalizing r with
  | nil => simp [Run.after]
  | cons t rest ih =>
    refine (ih { r with triggers := r.triggers.push t }).trans ?_
    simp

theorem apply_empty (r : Run) : ({} : Effect).apply r = r := after_records [] r

theorem after_accesses (f : Effect) (r : Run) : r.after f.accesses = f.apply r := by
  unfold accesses Run.after
  rw [List.foldl_append, List.foldl_append]
  show ((r.after _).after _).after _ = _
  rw [after_prints, after_assigns, after_records]
  rfl

end Effect

/-! ## Effects of actions -/

/-- The variables a response sets, with their values. -/
def Http.Request.stored (q : Http.Request) (x : Http.Response) (body : Value) : Entries Value :=
  [(q.resultVariable, body)] ++
    (if q.resultVariable ≠ Http.responseVariable then [(Http.responseVariable, body)] else []) ++
      [("status", .int x.status), ("response_headers", Http.headersValue x.headers)]

/-- The lines that tell what a command wrote. -/
def commandLines (out err : List UInt8) : List String :=
  let ended (text : String) : String :=
    String.ofList (Text.dropEndWhile (fun c => c == '\r' || c == '\n') text.toList)
  ["stdout: " ++ ended (Utf8.decode out), "stderr: " ++ ended (Utf8.decode err)]

/-- After these moves a value has come to the second one: it is the same, or what it evaluates to. -/
inductive Value.ComesTo (moves : List Move) (v : Value) : Bool → Value → Prop
  | same : ComesTo moves v false v
  | evaluated {store : Store} {x : Value} : Move.access .read store ∈ moves →
      Expr.evaluate v.display store = .ok x → ComesTo moves v true x

/-- What an action leaves of a run when it succeeds after these moves. -/
inductive Action.Leaves (moves : List Move) : Action → Effect → Prop
  | assign {name : String} {v x : Value} {evaluated : Bool} : v.ComesTo moves evaluated x →
      Leaves moves (.assign name v evaluated) { writes := [(name, x)] }
  | print {message x : Value} {evaluated : Bool} : message.ComesTo moves evaluated x →
      Leaves moves (.print message evaluated) { lines := [x.display] }
  | command {spec : Command.Spec} {shell : Bool} {timeout : Option Float}
      {command : Command.Invocation} {seconds : Float} {code : Option Nat} {out err : List UInt8} :
      spec.invocation shell = .ok command →
      .wait (.execute command seconds) (.ended code out err) ∈ moves →
      Leaves moves (.command spec shell timeout)
        { lines := commandLines out err
          writes := [("exit_code", .int (code.elim (-1) fun n => n)),
            ("stdout", .str (Utf8.decode out)), ("stderr", .str (Utf8.decode err))] }
  | evaluate {expression : String} : Leaves moves (.evaluate expression) {}
  | pause {seconds : Value} {evaluated : Bool} : Leaves moves (.pause seconds evaluated) {}
  | record {trigger : Trigger} {message : String} :
      Leaves moves (.record trigger message) { triggers := [trigger] }
  | request {q : Http.Request} {seconds : Float} {x : Http.Response} {body : Value} :
      .wait (.send q seconds) (.answered x) ∈ moves → x.data q.expectsJson = .ok body →
      Leaves moves (.request q) { writes := q.stored x body }
  | merge {sources : List Value} {target : String} {store : Store} {entries : Entries Value} :
      Move.access .read store ∈ moves → Engine.merged store [] sources = .ok entries →
      Leaves moves (.merge sources target) { writes := [(target, .dict entries)] }

theorem Value.ComesTo.mono {moves more : List Move} {v x : Value} {evaluated : Bool}
    (h : v.ComesTo moves evaluated x) (hm : ∀ move ∈ moves, move ∈ more) :
    v.ComesTo more evaluated x := by
  cases h with
  | same => exact .same
  | evaluated hread hx => exact .evaluated (hm _ hread) hx

theorem Action.Leaves.mono {moves more : List Move} {a : Action} {f : Effect}
    (h : a.Leaves moves f) (hm : ∀ move ∈ moves, move ∈ more) : a.Leaves more f := by
  cases h with
  | assign hx => exact .assign (hx.mono hm)
  | print hx => exact .print (hx.mono hm)
  | command hcommand hend => exact .command hcommand (hm _ hend)
  | evaluate => exact .evaluate
  | pause => exact .pause
  | record => exact .record
  | request hanswer hbody => exact .request (hm _ hanswer) hbody
  | merge hread hentries => exact .merge (hm _ hread) hentries

namespace Engine

open Attempt

variable {e : Engine} {lists : String → Process (Except Outcome Nat)}

/-- The action has done no more than its effect. -/
def Does (a : Action) (moves : List Move) : Prop :=
  ∃ f : Effect, a.Leaves moves f ∧ changes moves = f.accesses

/-- Nothing is changed on the way to the value of a field. -/
theorem valueOf_bind {P : Outcome → List Move → Prop} {v : Value} {evaluated : Bool}
    {f : Value → Attempt Outcome}
    (h : ∀ x before, v.ComesTo before evaluated x → changes before = [] → Ensures P before (f x)) :
    Ensures P [] (valueOf v evaluated >>= f) := by
  refine .bind ?_
  unfold valueOf
  cases evaluated with
  | false => exact .pure (h v [] .same rfl)
  | true =>
    refine .bind (.access trivial fun store => .settled (fun x hx => ?_) fun _ _ => trivial)
    exact h x _ (.evaluated List.mem_cons_self hx) rfl

theorem carryOutCommand_does (spec : Command.Spec) (shell : Bool) (timeout : Option Float) :
    Ensures (fun _ => Does (.command spec shell timeout)) []
      (e.carryOutCommand spec shell timeout) := by
  unfold carryOutCommand
  dsimp only
  split
  · exact .throw trivial
  · rename_i command hcommand
    refine .bind (.wait trivial fun x => ?_)
    cases x with
    | ended code out err =>
      refine .bind (.access trivial fun _ => .bind (.access trivial fun _ => ?_))
      refine .bind (.access trivial fun _ => .bind (.access trivial fun _ => ?_))
      refine .bind (.access trivial fun _ => .pure ⟨_, .command hcommand List.mem_cons_self, ?_⟩)
      cases code with
      | none => rfl
      | some n => rfl
    | unstarted | timedOut | interrupted => exact .throw trivial

theorem store_does (q : Http.Request) (seconds : Float) (x : Http.Response) :
    Ensures (fun _ => Does (.request q)) [.wait (.send q seconds) (.answered x)]
      (Engine.store q x) := by
  unfold Engine.store
  refine .bind (.settled (fun body hbody => .bind (.access trivial fun _ => ?_)) fun _ _ => trivial)
  dsimp only
  split
  · rename_i hne
    refine .bind (.access trivial fun _ => .bind (.access trivial fun _ => ?_))
    refine .bind (.access trivial fun _ => .pure ⟨_, .request List.mem_cons_self hbody, ?_⟩)
    rw [Http.Request.stored, if_pos hne]
    rfl
  · rename_i heq
    refine .bind (.access trivial fun _ => .bind (.access trivial fun _ => ?_))
    refine .pure ⟨_, .request List.mem_cons_self hbody, ?_⟩
    rw [Http.Request.stored, if_neg heq]
    rfl

theorem carryOutRequest_does (q : Http.Request) :
    Ensures (fun _ => Does (.request q)) [] (e.carryOutRequest q) := by
  unfold carryOutRequest
  split
  · exact .throw trivial
  · split
    · exact .throw trivial
    · refine .bind (.wait trivial fun x => ?_)
      cases x with
      | answered x => exact store_does q _ x
      | failed | interrupted => exact .throw trivial

/-- An action that runs no other steps and succeeds has done what it can do, and nothing else. -/
theorem carryOut_does {a : Action} (hc : a.kind ≠ .condition) (hl : a.kind ≠ .loop) :
    Ensures (fun _ => Does a) [] (e.carryOut lists a) := by
  -- The cases show what was done before the action came to its end: every `before` has no effect.
  cases a with
  | choose condition => exact absurd rfl hc
  | iterate mode limit => exact absurd rfl hl
  | command spec shell timeout => exact carryOutCommand_does spec shell timeout
  | request q => exact carryOutRequest_does q
  | assign name v evaluated =>
    refine valueOf_bind fun x before hx hbefore => .bind (.access trivial fun _ => .pure ?_)
    refine ⟨_, .assign (hx.mono fun _ => List.mem_append_left _), ?_⟩
    simp only [Watch.answered_noting, changes_append, hbefore]
    rfl
  | print message evaluated =>
    refine valueOf_bind fun x before hx hbefore => .bind (.access trivial fun _ => .pure ?_)
    refine ⟨_, .print (hx.mono fun _ => List.mem_append_left _), ?_⟩
    simp only [Watch.answered_noting, changes_append, hbefore]
    rfl
  | evaluate expression =>
    exact valueOf_bind fun x before _ hbefore => .pure ⟨_, .evaluate, hbefore⟩
  | pause seconds evaluated =>
    refine valueOf_bind fun x before _ hbefore => ?_
    refine .bind (.settled (fun y _ => ?_) fun _ _ => trivial)
    refine .bind (.wait trivial fun lasted => ?_)
    cases lasted with
    | false => exact .throw trivial
    | true =>
      refine .pure ⟨_, .pause, ?_⟩
      simp only [Watch.awaited_noting, changes_append, hbefore]
      rfl
  | record trigger message => exact .bind (.access trivial fun _ => .pure ⟨_, .record, rfl⟩)
  | merge sources target =>
    refine .bind (.access trivial fun store => ?_)
    refine .bind (.settled (fun entries hentries => ?_) fun _ _ => trivial)
    refine .bind (.access trivial fun _ => .pure ?_)
    exact ⟨_, .merge List.mem_cons_self hentries, rfl⟩

theorem handle_does {k : Action.Kind} (hc : k ≠ .condition) (hl : k ≠ .loop) (s : Step) :
    Ensures (fun _ moves => ∃ a, Action.read k s = .ok a ∧ Does a moves) []
      (e.handle lists (.ofKind k) s) := by
  refine .bind (.settled (fun a ha => ?_) fun _ _ => trivial)
  obtain rfl := Action.read_kind k s a ha
  exact (carryOut_does hc hl).mono (fun _ _ h => ⟨a, ha, h⟩) fun _ _ h => h

end Engine

/-! ## Variables that stay -/

namespace Store

/-- The variables with other names than these are the same in both stores, in the same places. -/
def SameBut (names : List String) (store later : Store) : Prop :=
  ∀ (i : Nat) (name : String) (v : Value), name ∉ names →
    (later[i]? = some (name, v) ↔ store[i]? = some (name, v))

variable {names : List String} {store later last : Store}

theorem SameBut.refl (store : Store) : SameBut names store store := fun _ _ _ _ => Iff.rfl

theorem SameBut.trans (h : SameBut names store later) (h' : SameBut names later last) :
    SameBut names store last :=
  fun i name v hname => (h' i name v hname).trans (h i name v hname)

theorem sameBut_insert (store : Store) {name : String} (hname : name ∈ names) (v : Value) :
    SameBut names store (store.insert name v) := by
  -- By induction on the entries in front of the one that is replaced, or added at the end.
  induction store with
  | nil =>
    rintro (_ | i) other w hother
    · refine iff_of_false (fun h => ?_) nofun
      cases h
      exact hother hname
    · exact Iff.rfl
  | cons entry rest ih =>
    obtain ⟨first, u⟩ := entry
    intro i other w hother
    rw [Entries.insert]
    split
    · rename_i heq
      subst heq
      cases i with
      | zero =>
        refine iff_of_false (fun h => ?_) fun h => ?_
        · cases h
          exact hother hname
        · cases h
          exact hother hname
      | succ i => exact Iff.rfl
    · cases i with
      | zero => exact Iff.rfl
      | succ i => exact ih i other w hother

theorem sameBut_extend {writes : Entries Value} (h : ∀ name ∈ writes.names, name ∈ names)
    (store : Store) : SameBut names store (store.extend writes) := by
  induction writes generalizing store with
  | nil => exact .refl store
  | cons entry rest ih =>
    obtain ⟨hname, hrest⟩ := List.forall_mem_cons.mp h
    exact (sameBut_insert store hname entry.2).trans (ih hrest _)

theorem continues_extend (store : Store) (writes : Entries Value) :
    store.Continues (store.extend writes) := by
  induction writes generalizing store with
  | nil => exact List.prefix_rfl
  | cons entry rest ih => exact (continues_insert store entry.1 entry.2).trans (ih _)

end Store

/-! ## What actions own -/

namespace Action

namespace Kind

/-- The variables that an action of this kind, with these fields, may set. -/
def owned (s : Step) : Kind → List String
  | setVar => [(s.text? "name").getD ""]
  | executeCommand => ["exit_code", "stdout", "stderr"]
  | httpRequest =>
    [(s.text? "return_var").getD Http.responseVariable, Http.responseVariable, "status",
      "response_headers"]
  | combineData => [(s.text? "output_var").getD "combined_data"]
  | _ => []

/-- How many lines an action of this kind prints. -/
def lineCount : Kind → Nat
  | printMsg => 1
  | executeCommand => 2
  | _ => 0

/-- How many triggers an action of this kind records. -/
def triggerCount : Kind → Nat
  | trigger => 1
  | _ => 0

/-- What has changed of the variables, the output and the triggers of a run is no more than what an
action of this kind owns, with these fields. Other variables keep their values and places, and no
variable loses its place. -/
structure Owns (k : Kind) (s : Step) (r later : Run) : Prop where
  others : r.store.SameBut (k.owned s) later.store
  places : r.store.Continues later.store
  output : ∃ lines : List String, lines.length = k.lineCount ∧
    later.output = lines.foldl Output.push r.output
  triggers : ∃ ts : List Trigger, ts.length = k.triggerCount ∧
    later.triggers = r.triggers ++ ts.toArray

/-- The history and the cancellation are not the action's own. -/
theorem Owns.log_marked {k : Kind} {s : Step} {r later : Run} (h : k.Owns s r later)
    (entry : Run.Entry) (b : Bool) : k.Owns s r ((later.log entry).marked b) := by
  unfold Run.log
  split
  · exact ⟨h.others, h.places, h.output, h.triggers⟩
  · exact ⟨h.others, h.places, h.output, h.triggers⟩

end Kind

variable {a : Action} {moves : List Move} {f : Effect}

/-- An action sets only its targets. -/
theorem Leaves.names (h : a.Leaves moves f) : ∀ name ∈ f.writes.names, name ∈ a.targets := by
  cases h with
  | assign => exact fun _ h => h
  | command => exact fun _ h => h
  | merge => exact fun _ h => h
  | print | evaluate | pause | record => exact fun _ h => nomatch h
  | @request q seconds x body =>
    intro name hname
    unfold Http.Request.stored at hname
    split at hname
    · exact hname
    · exact List.mem_cons.mpr ((List.mem_cons.mp hname).imp_right (List.mem_cons_of_mem _))

theorem targets_eq_owned (hs : a.kind ≠ .setVar) (hr : a.kind ≠ .httpRequest)
    (hm : a.kind ≠ .combineData) (hl : a.kind ≠ .loop) (s : Step) : a.targets = a.kind.owned s := by
  cases a with
  | assign => exact absurd rfl hs
  | request => exact absurd rfl hr
  | merge => exact absurd rfl hm
  | iterate => exact absurd rfl hl
  | print | command | evaluate | choose | pause | record => rfl

/-- The targets of an action are named by its fields. -/
theorem targets_of_read {k : Kind} {s : Step} (hl : k ≠ .loop) (h : read k s = .ok a) :
    a.targets = k.owned s := by
  have hk := read_kind k s a h
  -- As far as the fields name a target, it is read from them; elsewhere it is fixed.
  cases k with
  | setVar =>
    obtain ⟨_, -, h⟩ := Except.bind_eq_ok.mp h
    obtain ⟨_, -, h⟩ := Except.bind_eq_ok.mp h
    cases h
    rfl
  | httpRequest =>
    obtain ⟨q, hq, rfl⟩ := Except.map_eq_ok.mp h
    rw [targets, (Http.Request.ofStep_gives s q hq).resultVariable]
    rfl
  | combineData =>
    obtain ⟨_, -, h⟩ := Except.bind_eq_ok.mp h
    dsimp only at h
    split at h
    · obtain ⟨_, -, h⟩ := Except.bind_eq_ok.mp h
      cases h
      rfl
    · cases h
      rfl
  | loop => exact absurd rfl hl
  | printMsg | executeCommand | eval | condition | delay | trigger =>
    rw [← hk]
    exact targets_eq_owned (by rw [hk]; decide) (by rw [hk]; decide) (by rw [hk]; decide)
      (by rw [hk]; decide) s

theorem Leaves.owns (h : a.Leaves moves f) {k : Kind} {s : Step} (hl : k ≠ .loop)
    (ha : read k s = .ok a) (r : Run) : k.Owns s r (f.apply r) where
  others := Store.sameBut_extend (targets_of_read hl ha ▸ h.names) r.store
  places := Store.continues_extend r.store f.writes
  output := by
    obtain rfl := read_kind k s a ha
    refine ⟨f.lines, ?_, rfl⟩
    cases h with
    | _ => rfl
  triggers := by
    obtain rfl := read_kind k s a ha
    refine ⟨f.triggers, ?_, rfl⟩
    cases h with
    | _ => rfl

/-- Evaluating and waiting leave nothing. -/
theorem Leaves.idle (h : a.Leaves moves f) (hk : a.kind = .eval ∨ a.kind = .delay) : f = {} := by
  cases h with
  | evaluate | pause => rfl
  | _ => exact nomatch hk

end Action

/-! ## Responses -/

namespace Http

/-- The variables hold the response, and the one with this name holds its body too. -/
structure Response.StoredIn (x : Response) (body : Value) (name : String) (store : Store) :
    Prop where
  result : store.get? name = some body
  response : store.get? responseVariable = some body
  status : store.get? "status" = some (.int x.status)
  headers : store.get? "response_headers" = some (headersValue x.headers)

/-- No value of a response is overwritten by another one. -/
theorem Request.storedIn_extend {q : Request} (hq : q.resultVariable ∉ reservedVariables)
    (x : Response) (body : Value) (store : Store) :
    x.StoredIn body q.resultVariable (store.extend (q.stored x body)) := by
  -- A variable has what was stored under its name last.
  have hlast (name : String) : (store.extend (q.stored x body)).get? name =
      if "response_headers" = name then some (headersValue x.headers)
      else if "status" = name then some (.int x.status)
      else if q.resultVariable = name ∨ responseVariable = name then some body
      else store.get? name := by
    unfold stored
    split
    · show ((((store.insert _ _).insert _ _).insert _ _).insert _ _).get? name = _
      simp only [Entries.get?_insert]
      grind
    · show (((store.insert _ _).insert _ _).insert _ _).get? name = _
      simp only [Entries.get?_insert]
      grind
  have hbody {name : String} (hname : q.resultVariable = name ∨ responseVariable = name)
      (hfree : name ∉ reservedVariables) :
      (store.extend (q.stored x body)).get? name = some body := by
    rw [hlast, if_neg, if_neg, if_pos hname]
    · rintro rfl
      exact hfree (by decide)
    · rintro rfl
      exact hfree (by decide)
  exact {
    result := hbody (.inl rfl) hq
    response := hbody (.inr rfl) (by decide)
    status := hlast "status"
    headers := hlast "response_headers" }

end Http

/-! ## Steps that succeed -/

theorem Run.store_log (r : Run) (entry : Run.Entry) : (r.log entry).store = r.store :=
  (store_perform (.log entry) r).resolve_left fun ⟨_, _, h, _⟩ => nomatch h

theorem Process.run_eq_apply {world : World τ} (hw : world.OnlyCancels) (p : Process α) (r : Run)
    (t : τ) {f : Effect} (h : changes (p.moves world r t) = f.accesses) :
    ∃ b, (p.run world r t).2.1 = (f.apply r).marked b := by
  obtain ⟨b, hb⟩ := run_eq_foldl hw p r r.cancelled t
  rw [Run.marked_eq rfl, filter_accesses, h, Effect.after_accesses] at hb
  exact ⟨b, hb⟩

namespace Engine

open Attempt (settled access)

variable {e : Engine} {world : World τ}

/-- What comes of an action, as its step has it. -/
def closing (e : Engine) (action : String) : Except Cause Outcome → Outcome
  | .ok o => o
  | .error c => e.failure (some action) c

theorem dispatch_eq_closing (e : Engine) (s : Step) :
    e.dispatch s = (e.prepare s).run.bind fun
      | .error c => .done (e.failure s.action? c)
      | .ok (d, s') => (e.handle (e.runField s.fields) d s').run.bind fun result =>
        .access (.log ⟨d.name, e.closing d.name result⟩) fun _ =>
          .done (e.closing d.name result) := by
  rw [dispatch_eq, dispatchWith]
  refine congrArg (Process.bind _) (funext fun prepared => ?_)
  cases prepared with
  | error c => rfl
  | ok p =>
    refine congrArg (Process.bind _) (funext fun result => ?_)
    cases result with
    | ok o => rfl
    | error c => rfl

/-- A prepared step has its action carried out, and then the outcome goes into the history. -/
theorem run_dispatch_closing (hw : world.OnlyCancels) {s s' : Step} {d : Descriptor} {r r' : Run}
    {t t' : τ} (h : (e.prepare s).run.run world r t = (.ok (d, s'), r', t')) :
    let action := (e.handle (e.runField s.fields) d s').run
    let o := e.closing d.name (action.run world r' t').1
    (∀ move ∈ action.moves world r' t', move ∈ (e.dispatch s).moves world r t) ∧
      ((e.dispatch s).run world r t).1 = o ∧
      ∃ b, ((e.dispatch s).run world r t).2.1 =
        ((action.run world r' t').2.1.log ⟨d.name, o⟩).marked b := by
  intro action o
  rw [dispatch_eq_closing, Process.run_bind, Process.moves_bind, h]
  dsimp only
  rw [Process.run_bind, Process.moves_bind]
  refine ⟨fun move hmove => List.mem_append_right _ (List.mem_append_left _ hmove), rfl, ?_⟩
  obtain ⟨b, hb⟩ := hw.meanwhile_marked (action.run world r' t').2.1
    (action.run world r' t').2.1.cancelled (action.run world r' t').2.2
  rw [Run.marked_eq rfl] at hb
  refine ⟨b, ?_⟩
  rw [← Run.log_marked, ← hb]
  rfl

/-- What is worked out from the variables is then put into one of them. If nothing comes of it, the
run is left alone. -/
theorem run_assigning {β : Type} (hw : world.OnlyCancels) (f : Store → Except Cause α)
    (name : String) (value : α → Value) (give : α → β) (r : Run) (b : Bool) (t : τ) :
    let assigning : Attempt β := do
      let store ← access .read
      let x ← settled (f store)
      access (.assign name (value x))
      return give x
    ∃ b' t', assigning.run.run world (r.marked b) t =
      match f r.store with
      | .ok x => (.ok (give x), (r.assign name (value x)).marked b', t')
      | .error c => (.error c, r.marked b', t') := by
  intro assigning
  obtain ⟨b', hb'⟩ := hw.meanwhile_marked r b t
  -- The run may be cancelled before the variables are read, and before the variable is set.
  dsimp only [assigning]
  rw [Attempt.run_bind, Attempt.run_access_eq, hb']
  dsimp only [Run.Access.perform]
  rw [Attempt.run_bind, Attempt.run_settled, Run.store_marked]
  cases f r.store with
  | error c => exact ⟨b', _, rfl⟩
  | ok x =>
    obtain ⟨b'', hb''⟩ := hw.meanwhile_marked r b' (world.meanwhile (r.marked b) t).2
    dsimp only
    rw [Attempt.run_bind, Attempt.run_access_eq, hb'']
    exact ⟨b'', _, rfl⟩

/-- A prepared step ends as its action does, and the outcome goes into the history. -/
theorem run_dispatch_carried (hw : world.OnlyCancels) {k : Action.Kind} {s s' : Step} {r : Run}
    {t : τ} {a : Action} (h : e.preparation (world.meanwhile r t).1 s = .ok (.ofKind k, s'))
    (ha : Action.read k s' = .ok a) {result : Except Cause Outcome} {after : Run}
    (hcarry : ∀ b t, ∃ b' t', (e.carryOut (e.runField s.fields) a).run.run world (r.marked b) t =
      (result, after.marked b', t')) :
    ((e.dispatch s).run world r t).1 = e.closing k.name result ∧
      ∃ b, ((e.dispatch s).run world r t).2.1 =
        (after.log ⟨k.name, e.closing k.name result⟩).marked b := by
  obtain ⟨b, t', hprepare⟩ := run_prepare_eq hw e s r t
  rw [h] at hprepare
  obtain ⟨-, houtcome, b', hrun⟩ := run_dispatch_closing hw hprepare
  have hhandle : e.handle (e.runField s.fields) (.ofKind k) s' =
      e.carryOut (e.runField s.fields) a := by
    show (settled (Action.read k s') >>= _) = _
    rw [ha]
    rfl
  obtain ⟨b'', t'', hcarry⟩ := hcarry b t'
  rw [houtcome, hrun, hhandle, hcarry]
  refine ⟨rfl, b', ?_⟩
  rw [Run.log_marked]
  rfl

/-- A step that has succeeded has been prepared, and its action has done what it can do. -/
theorem run_dispatch_succeeded (hw : world.OnlyCancels) {k : Action.Kind} (hc : k ≠ .condition)
    (hl : k ≠ .loop) {s : Step} (ha : s.action? = some k.name)
    (he : e.registry.find? k.name = some (.ofKind k)) (r : Run) (t : τ)
    (ho : ((e.dispatch s).run world r t).1.isError = false) :
    ∃ s' a f b, e.ready (.ofKind k) r.store s = .ok s' ∧ Action.read k s' = .ok a ∧
      a.Leaves ((e.dispatch s).moves world r t) f ∧
      ((e.dispatch s).run world r t).2.1 =
        ((f.apply r).log ⟨k.name, ((e.dispatch s).run world r t).1⟩).marked b := by
  obtain ⟨b, t', hprepare⟩ := run_prepare_eq hw e s r t
  have hstore : (world.meanwhile r t).1.store = r.store := hw.leavesStore.meanwhile r t
  cases hp : e.preparation (world.meanwhile r t).1 s with
  -- A step that is refused does not succeed, and neither does one whose action fails.
  | error c =>
    obtain ⟨b, t', h⟩ := run_dispatch_refused hw (preparation_eq_error.mp hp)
    rw [h] at ho
    cases ho
  | ok p =>
    obtain ⟨d, s'⟩ := p
    obtain ⟨hd, hs⟩ := preparation_eq_ok hp
    rw [hstore] at hs
    obtain ⟨name, hname, hfind, -⟩ := actionOf_eq_ok.mp hd
    obtain rfl : k.name = name := Option.some.inj (ha.symm.trans hname)
    obtain rfl : .ofKind k = d := Option.some.inj (he.symm.trans hfind)
    rw [hp] at hprepare
    obtain ⟨hmoves, houtcome, b', hrun⟩ := run_dispatch_closing hw hprepare
    let action := e.handle (e.runField s.fields) (.ofKind k) s'
    cases hresult : (action.run.run world (r.marked b) t').1 with
    | error c =>
      rw [houtcome, hresult] at ho
      cases ho
    | ok o =>
      obtain ⟨a, hread, f, hleaves, hchanges⟩ := (handle_does hc hl s').moves hresult
      obtain ⟨b'', happly⟩ := Process.run_eq_apply hw _ (r.marked b) t' hchanges
      refine ⟨s', a, f, b', hs, hread, hleaves.mono hmoves, ?_⟩
      rw [hrun, houtcome, happly, Run.log_marked]
      show (((f.apply r).marked b).log _).marked b' = _
      rw [Run.log_marked]
      rfl

/-- An action that runs no other steps changes only what it owns. When its step has succeeded, it
has done what it can do with the fields it was handed, then the outcome has gone into the history,
and meanwhile the run may have been cancelled; that is all. Evaluating and waiting do nothing. A
request has stored the response it waited for, whatever variable its body goes into. -/
theorem dispatch_owns (hw : world.OnlyCancels) (e : Engine) {k : Action.Kind} (hc : k ≠ .condition)
    (hl : k ≠ .loop) {s : Step} (ha : s.action? = some k.name)
    (he : e.registry.find? k.name = some (.ofKind k)) (r : Run) (t : τ)
    (ho : ((e.dispatch s).run world r t).1.isError = false) :
    ∃ s' a f b, e.ready (.ofKind k) r.store s = .ok s' ∧ Action.read k s' = .ok a ∧
      a.Leaves ((e.dispatch s).moves world r t) f ∧
      ((e.dispatch s).run world r t).2.1 =
        ((f.apply r).log ⟨k.name, ((e.dispatch s).run world r t).1⟩).marked b ∧
      k.Owns s' r ((e.dispatch s).run world r t).2.1 ∧
      (k = .eval ∨ k = .delay → f.apply r = r) ∧
      (k = .httpRequest → ∃ q seconds x body, Http.Request.ofStep s' = .ok q ∧
        .wait (.send q seconds) (.answered x) ∈ (e.dispatch s).moves world r t ∧
        x.data q.expectsJson = .ok body ∧
        x.StoredIn body ((s'.text? "return_var").getD Http.responseVariable)
          ((e.dispatch s).run world r t).2.1.store) := by
  obtain ⟨s', a, f, b, hs, hread, hleaves, hrun⟩ := run_dispatch_succeeded hw hc hl ha he r t ho
  have hk := Action.read_kind k s' a hread
  refine ⟨s', a, f, b, hs, hread, hleaves, hrun, ?_, ?_, ?_⟩
  · rw [hrun]
    exact (hleaves.owns hl hread r).log_marked _ b
  · rintro hidle
    rw [hleaves.idle (hk ▸ hidle), Effect.apply_empty]
  · rintro rfl
    obtain ⟨q, hq, rfl⟩ := Except.map_eq_ok.mp hread
    have hmade := Http.Request.ofStep_gives s' q hq
    have hstore : ((e.dispatch s).run world r t).2.1.store = r.store.extend f.writes := by
      rw [hrun, Run.store_marked, Run.store_log]
      rfl
    cases hleaves with
    | @request q seconds x body hanswer hbody =>
      refine ⟨q, seconds, x, body, hq, hanswer, hbody, ?_⟩
      rw [hstore, ← hmade.resultVariable]
      exact Http.Request.storedIn_extend hmade.unreserved x body r.store

/-- The body of a response goes into a variable that is there already: it keeps its place before
another one, which keeps its value, and the three that always hold the response come behind. -/
theorem dispatch_owns_response :
    let s : Step := ⟨[("action", .str "http_request"), ("url", .str "http://localhost:9"),
      ("return_var", .str "b")]⟩
    let answer : (w : Wait) → Unit → w.Answer × Unit
      | .send .., _ => (.answered ⟨204, [("x-a", [98])], [99]⟩, ())
      | w, _ => w.quiet ()
    let e : Engine := {}
    let r := (Run.create "response" {} e.config).seed [("b", .null), ("a", .int 1)]
    let world := World.answering answer
    let later := ((e.dispatch s).run world r ()).2.1
    world.OnlyCancels ∧ ((e.dispatch s).run world r ()).1.isError = false ∧
      later.store.names = ["b", "a", "response", "status", "response_headers"] ∧
      ∃ (s' : Step) (x : Http.Response) (body : Value), Action.Kind.httpRequest.Owns s' r later ∧
        x.StoredIn body ((s'.text? "return_var").getD Http.responseVariable) later.store := by
  intro s answer e r world later
  have hw : world.OnlyCancels := ⟨fun _ _ => .inl rfl, fun _ _ _ => .inl rfl⟩
  have ho : ((e.dispatch s).run world r ()).1.isError = false := by decide +kernel
  obtain ⟨s', a, f, b, -, -, -, -, howns, -, hresponse⟩ :=
    dispatch_owns hw e (k := .httpRequest) (by decide) (by decide) rfl rfl r () ho
  obtain ⟨q, seconds, x, body, -, -, -, hstored⟩ := hresponse rfl
  exact ⟨hw, ho, by decide +kernel, s', x, body, howns, hstored⟩

end Engine

end Stepwise
