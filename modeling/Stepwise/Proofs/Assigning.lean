import Stepwise.Proofs.Excerpt
import Stepwise.Proofs.Ownership
import Stepwise.Proofs.Substitution

/-!
# Lines that assign are steps that set variables

A line of a snippet that assigns is cut out of a text, and a step that sets a variable is filled,
read and checked. Yet both come to the same end where the line holds no placeholder: they evaluate
one expression and set one variable to what comes of it, or fail for one reason and leave the run as
it was.

* `Engine.setting`: the step that does what a line does.
* `Engine.preparation_setting`: it is always accepted, and handed over as it was written.
* `Engine.run_carryOutLine_assign`, `Engine.run_dispatch_setting`: what comes of either.
* `Engine.line_matches_step`: they do the same.
-/

namespace Stepwise

variable {τ : Type}

/-- No part of a text that begins no placeholder holds one. -/
theorem Template.plain_of_infix {cs part : List Char} (h : ¬['$', '\x7b'] <:+: cs)
    (hpart : part <:+: cs) : Plain part := by
  rintro before name after - rfl
  refine h (List.IsInfix.trans ⟨before, name ++ ['\x7d'] ++ after, ?_⟩ hpart)
  simp only [Piece.source, List.append_assoc, List.cons_append, List.nil_append]

theorem Statement.infix_of_ofLine {cs name expression : List Char}
    (h : ofLine cs = .assign name expression) : expression <:+: cs := by
  unfold ofLine at h
  split at h
  · cases h
  · split at h
    · next hassigned =>
      cases h
      obtain ⟨front, tail, rfl, -⟩ := assigned?_excerpt hassigned
      exact ⟨front, tail, rfl⟩
    · cases h

/-- The runs have the same variables in the same order, the same output and the same triggers. -/
structure Run.SameEffects (r later : Run) : Prop where
  store : r.store = later.store
  output : r.output = later.output
  triggers : r.triggers = later.triggers

/-- The history and the cancellation do not count. -/
theorem Run.sameEffects_log_marked (r : Run) (entry : Run.Entry) (b b' : Bool) :
    (r.marked b).SameEffects ((r.log entry).marked b') := by
  unfold log
  split
  · exact ⟨rfl, rfl, rfl⟩
  · exact ⟨rfl, rfl, rfl⟩

namespace Engine

variable {e : Engine} {world : World τ}

/-! ## Steps that set variables -/

/-- A step that sets a variable to the value of an expression. -/
def setting (name expression : String) : Step :=
  ⟨[("action", .str "set_var"), ("name", .str name), ("value", .str expression),
    ("eval", .bool true)]⟩

theorem read_setting {name : String} (hname : isIdentifier name = true) (expression : String) :
    Action.read .setVar (setting name expression) = .ok (.assign name (.str expression) true) := by
  show (Action.checkName .setVar "name" name >>= fun _ =>
    .ok (Action.assign name (.str expression) true)) = _
  rw [Action.checkName, if_pos hname]
  rfl

/-- Such a step is handed over as it was written. -/
theorem preparation_setting (he : e.registry.find? "set_var" = some (.ofKind .setVar)) {r : Run}
    (hr : r.cancelled = false) {name expression : String} (hname : isIdentifier name = true)
    (hplain : Template.Plain expression.toList) :
    e.preparation r (setting name expression) = .ok (.ofKind .setVar, setting name expression) := by
  have hd : e.actionOf (setting name expression) = .ok (.ofKind .setVar) :=
    actionOf_eq_ok.mpr ⟨_, rfl, he, rfl⟩
  have hf : e.fieldsRead (.ofKind .setVar) r.store (setting name expression).fields =
      .ok (setting name expression).fields.tail := by
    show (Template.resolve r.store e.config.undefinedVariables (.str name) >>= fun v =>
      (Template.resolve r.store e.config.undefinedVariables (.str expression) >>= fun w =>
        .ok [("value", w), ("eval", .bool true)]) >>= fun rest => .ok (("name", v) :: rest)) = _
    rw [Template.resolve_str_plain _ _ (Template.plain_of_isIdentifier hname),
      Template.resolve_str_plain _ _ hplain]
    rfl
  have hc : Action.check .setVar (setting name expression) = .ok () := by
    rw [Action.check, read_setting hname]
    · rfl
    · nofun
    · nofun
  exact preparation_of_ready hr hd (ready_eq_ok.mpr ⟨⟨_, hf, rfl⟩, hc⟩)

/-! ## What comes of lines and steps -/

/-- The run with a variable set to a value, if there is one. -/
def assigned (r : Run) (name : String) : Except Cause Value → Run
  | .ok v => r.assign name v
  | .error _ => r

/-- What is said when a variable is set. -/
def assignedMessage (name : String) (v : Value) : String :=
  "Variable '" ++ name ++ "' set to '" ++ v.display ++ "'"

/-- A line that assigns and passes the screens evaluates its expression and sets its variable. -/
theorem run_carryOutLine_assign (hw : world.OnlyCancels) {line : String}
    {name expression : List Char}
    (hline : Statement.ofLine line.toList = .assign name expression)
    (hscreen : Snippet.screen line = .ok ()) (r : Run) (t : τ) :
    ∃ b t', (Snippet.carryOutLine line).run.run world r t =
      ((Expr.evaluate (String.ofList expression) r.store).map
          (assignedMessage (String.ofList name)),
        (assigned r (String.ofList name)
          (Expr.evaluate (String.ofList expression) r.store)).marked b, t') := by
  obtain ⟨b, t', hrun⟩ := run_assigning hw (Expr.evaluate (String.ofList expression))
    (String.ofList name) id (assignedMessage (String.ofList name)) r r.cancelled t
  have hcarry : Snippet.carryOutLine line = Snippet.carryOut (.assign name expression) := by
    show (Attempt.settled (Snippet.screen line) >>= fun _ =>
      Snippet.carryOut (.ofLine line.toList)) = _
    rw [hscreen, hline]
    rfl
  rw [Run.marked_eq rfl] at hrun
  rw [hcarry]
  refine ⟨b, t', hrun.trans ?_⟩
  cases Expr.evaluate (String.ofList expression) r.store with
  | ok v => rfl
  | error c => rfl

/-- A step that sets a variable evaluates the same expression and sets the same variable. -/
theorem run_dispatch_setting (hw : world.OnlyCancels)
    (he : e.registry.find? "set_var" = some (.ofKind .setVar)) {name expression : String}
    (hname : isIdentifier name = true) (hplain : Template.Plain expression.toList) {r : Run} {t : τ}
    (hr : (world.meanwhile r t).1.cancelled = false) :
    let o := e.closing "set_var" ((Expr.evaluate expression r.store).map fun v =>
      .success "set_var" (assignedMessage name v))
    ((e.dispatch (setting name expression)).run world r t).1 = o ∧
      ∃ b, ((e.dispatch (setting name expression)).run world r t).2.1 =
        ((assigned r name (Expr.evaluate expression r.store)).log ⟨"set_var", o⟩).marked b := by
  intro o
  refine run_dispatch_carried hw (preparation_setting he hr hname hplain)
    (read_setting hname expression) fun b t => ?_
  obtain ⟨b', t', hcarry⟩ := run_assigning hw (Expr.evaluate expression) name id
    (fun v => Outcome.success "set_var" (assignedMessage name v)) r b t
  refine ⟨b', t', hcarry.trans ?_⟩
  cases Expr.evaluate expression r.store with
  | ok v => rfl
  | error c => rfl

/-- A line that assigns does what the step does that sets the variable, if the line passes the
screens and nothing in it could be taken for a placeholder, whatever is done about placeholders that
cannot be filled. Either both set the variable to the same value and say so in the same words; or
both fail with a cause of the same kind, the line says the same behind the place it stands at, and
neither has changed anything. If the run has been cancelled, neither does anything. -/
theorem line_matches_step (hw : world.OnlyCancels)
    (he : e.registry.find? "set_var" = some (.ofKind .setVar)) {line : String}
    {name expression : List Char} (hline : Statement.ofLine line.toList = .assign name expression)
    (hscreen : Snippet.screen line = .ok ()) (hplain : ¬['$', '\x7b'] <:+: line.toList) (r : Run)
    (t t' : τ) :
    let step := setting (String.ofList name) (String.ofList expression)
    let taken := (Snippet.carryOutLine line).run.run world r t
    let made := (e.dispatch step).run world r t'
    ((world.meanwhile r t').1.cancelled = false →
      taken.2.1.SameEffects made.2.1 ∧
      match taken.1 with
      | .ok message => made.1 = .success "set_var" message
      | .error c => made.1 = e.failure (some "set_var") c ∧ r.SameEffects made.2.1 ∧
        ∀ index, let o := Snippet.failure e.config index c
          o.category = made.1.category ∧
            o.message = Snippet.linePath index ++ ": " ++ made.1.message) ∧
    (r.cancelled = true →
      made.1 = e.failure (some "set_var") .cancelled ∧ made.2.1 = r ∧
      ∀ done index rest,
        let ended := (Snippet.statementsFrom e.config done ((index, line) :: rest)).run world r t
        ended.1 = .error (Snippet.failure e.config index .cancelled) ∧ ended.2.1 = r) := by
  intro step taken made
  refine ⟨fun hr => ?_, fun hr => ?_⟩
  · -- What the screens let through holds no placeholder, and the expression is part of it.
    have hexpression : Template.Plain (String.ofList expression).toList := by
      rw [String.toList_ofList]
      exact Template.plain_of_infix hplain (Statement.infix_of_ofLine hline)
    obtain ⟨b, t'', htaken⟩ := run_carryOutLine_assign hw hline hscreen r t
    obtain ⟨hmade, b', hdone⟩ :=
      run_dispatch_setting hw he (Statement.identifier_of_ofLine hline) hexpression hr
    simp only [taken, made, step, htaken, hmade, hdone]
    refine ⟨Run.sameEffects_log_marked _ _ b b', ?_⟩
    cases Expr.evaluate (String.ofList expression) r.store with
    | ok v => rfl
    | error c => exact ⟨rfl, Run.sameEffects_log_marked r _ r.cancelled b', fun index => ⟨rfl, rfl⟩⟩
  · -- Both look for a cancellation before they look at the expression.
    obtain ⟨t'', hmade, -⟩ := run_dispatch_cancelled hw hr t' step
    refine ⟨congrArg Prod.fst hmade, congrArg (fun p => p.2.1) hmade, fun done index rest => ?_⟩
    obtain ⟨t'', hended, -⟩ := run_statementsFrom_cancelled hw hr t e.config done index line rest
    exact ⟨congrArg Prod.fst hended, congrArg (fun p => p.2.1) hended⟩

/-- A variable takes in its own value, and keeps it where a name is missing. -/
theorem line_matches_step_itself :
    let e : Engine := { config := { undefinedVariables := .error } }
    let r := (Run.create "itself" {} e.config).seed [("n", .int 4), ("m", .null)]
    let world : World Unit := .answering Wait.quiet
    let made (expression : String) := (e.dispatch (setting "n" expression)).run world r ()
    let taken (line : String) := (Snippet.carryOutLine line).run.run world r ()
    ((taken "n = [n, 2] ").1 = .ok "Variable 'n' set to '[4,2]'" ∧
      (made "[n, 2]").1 = .success "set_var" "Variable 'n' set to '[4,2]'" ∧
      (taken "n = [n, 2] ").2.1.SameEffects (made "[n, 2]").2.1) ∧
      (made "gone").1 = e.failure (some "set_var") (.undefinedVariable "gone") ∧
      r.SameEffects (made "gone").2.1 := by
  intro e r world made taken
  have hw : world.OnlyCancels := ⟨fun _ _ => .inl rfl, fun _ _ _ => .inl rfl⟩
  have hlist : Expr.evaluate "[n, 2]" r.store = .ok (.list [.int 4, .int 2]) := by
    have htokens : Expr.tokenize "[n, 2]" =
        .ok [.mark .openBracket, .name "n", .mark .comma, .int 2, .mark .closeBracket] := by
      decide +kernel
    have hread : Expr.read "[n, 2]" = .ok (.list [.var "n", .lit (.int 2)]) := by
      rw [Expr.read, Expr.parse, htokens]
      rfl
    rw [Expr.evaluate_of_read (by decide +kernel) hread]
    rfl
  have hgone : Expr.evaluate "gone" r.store = .error (.undefinedVariable "gone") := by
    have hread : Expr.read "gone" = .ok (.var "gone") := by
      have htokens : Expr.tokenize "gone" = .ok [.name "gone"] := by decide +kernel
      rw [Expr.read, Expr.parse, htokens]
      rfl
    rw [Expr.evaluate_of_read (by decide +kernel) hread]
    rfl
  refine ⟨?_, ?_⟩
  · have hline : Statement.ofLine "n = [n, 2] ".toList = .assign "n".toList "[n, 2]".toList := by
      decide +kernel
    have hscreen : Snippet.screen "n = [n, 2] " = .ok () := by decide +kernel
    obtain ⟨hsame, hmessage⟩ :=
      (line_matches_step (e := e) hw rfl hline hscreen (by decide +kernel) r () ()).1 rfl
    obtain ⟨b, t', htaken⟩ := run_carryOutLine_assign hw hline hscreen r ()
    rw [String.ofList_toList, String.ofList_toList] at hsame hmessage htaken
    have htext : assignedMessage "n" (.list [.int 4, .int 2]) = "Variable 'n' set to '[4,2]'" := by
      decide +kernel
    have hok : (taken "n = [n, 2] ").1 = .ok "Variable 'n' set to '[4,2]'" := by
      refine (congrArg Prod.fst htaken).trans ?_
      rw [hlist, ← htext]
      rfl
    rw [hok] at hmessage
    exact ⟨hok, hmessage, hsame⟩
  · have hline : Statement.ofLine "n = gone".toList = .assign "n".toList "gone".toList := by
      decide +kernel
    have hscreen : Snippet.screen "n = gone" = .ok () := by decide +kernel
    obtain ⟨-, hmessage⟩ :=
      (line_matches_step (e := e) hw rfl hline hscreen (by decide +kernel) r () ()).1 rfl
    obtain ⟨b, t', htaken⟩ := run_carryOutLine_assign hw hline hscreen r ()
    rw [String.ofList_toList, String.ofList_toList] at hmessage htaken
    have herror : (taken "n = gone").1 = .error (.undefinedVariable "gone") := by
      refine (congrArg Prod.fst htaken).trans ?_
      rw [hgone]
      rfl
    rw [herror] at hmessage
    exact ⟨hmessage.1, hmessage.2.1⟩

end Engine

end Stepwise
