import Stepwise.Proofs.Composition
import Stepwise.Proofs.Substitution

/-!
# The screen in front of the evaluator

An expression that contains a forbidden text is refused wherever the text stands in it and whatever
stands around it. Nothing is evaluated that was not screened, so the refusal comes out of every step,
pass and line that hands such an expression to the evaluator; and it comes before anything is done.

* `Screen.Forbidden`, `Screen.Denied`: the texts, and the expressions that contain one.
* `Engine.Submits`: the expression a step hands to the evaluator.
* `Engine.Passed`: the passes of a loop that went well.
* `Engine.denied_expressions_fail`: what becomes of denied expressions everywhere.
-/

namespace Stepwise

namespace Screen

open Text

/-- A text no expression may contain. -/
inductive Forbidden : List Char → Prop
  | underscores : Forbidden "__".toList
  | anyCase {cs : List Char} : cs.map Char.toLower = "import".toList → Forbidden cs
  | call {word : String} {blanks : List Char} : word ∈ ["exec", "eval", "compile"] →
      blanks.all isBlank = true → Forbidden (word.toList ++ blanks ++ ['('])
  | access {word : String} {blanks : List Char} : word ∈ ["os", "sys"] →
      blanks.all isBlank = true → Forbidden (word.toList ++ blanks ++ ['.'])

/-- An expression with a forbidden text somewhere in it. -/
def Denied (text : String) : Prop :=
  ∃ before cs after, text.toList = before ++ cs ++ after ∧ Forbidden cs

theorem wordsThen_append {words : List String} {word : String} {mark : Char} {blanks : List Char}
    (hw : word ∈ words) (hb : blanks.all isBlank = true) (hm : isBlank mark = false)
    (before : Option Char) (after : List Char) :
    wordsThen words mark before (word.toList ++ blanks ++ [mark] ++ after) = true := by
  refine List.any_eq_true.mpr ⟨word, hw, ?_⟩
  have hrest : behind? word.toList (word.toList ++ blanks ++ [mark] ++ after) =
      some (blanks ++ mark :: after) := by
    rw [behind?_eq_some_iff]
    simp only [List.append_assoc, List.cons_append, List.nil_append]
  have hdrop : (blanks ++ mark :: after).dropWhile isBlank = mark :: after := by
    rw [List.dropWhile_append_of_pos (List.all_eq_true.mp hb), List.dropWhile_cons_of_neg]
    rw [hm]
    exact Bool.false_ne_true
  rw [hrest]
  simp only [hdrop, List.head?_cons, beq_self_eq_true]

/-- A forbidden text matches a pattern, whatever stands before and behind it. -/
theorem Forbidden.matched {cs : List Char} (h : Forbidden cs) (after : List Char) :
    ∃ p ∈ expressionPatterns, ∀ before, p.1 before (cs ++ after) = true := by
  cases h with
  | underscores =>
    refine ⟨(literal "__", "double underscore access"), by simp [expressionPatterns], fun _ => ?_⟩
    exact List.isPrefixOf_iff_prefix.mpr ⟨after, rfl⟩
  | anyCase hcs =>
    refine ⟨(Screen.anyCase "import", "import"), by simp [expressionPatterns], fun _ => ?_⟩
    have hlength : cs.length = "import".length := by
      rw [← List.length_map Char.toLower, hcs]
      rfl
    show "import".toList.isPrefixOf (((cs ++ after).take "import".length).map Char.toLower) = true
    rw [List.take_left' hlength, hcs]
    exact List.isPrefixOf_iff_prefix.mpr List.prefix_rfl
  | call hw hb =>
    refine ⟨(wordsThen ["exec", "eval", "compile"] '(', "code execution call"),
      by simp [expressionPatterns], fun before => ?_⟩
    exact wordsThen_append hw hb (by decide) before after
  | access hw hb =>
    refine ⟨(wordsThen ["os", "sys"] '.', "os/sys access"), by simp [expressionPatterns],
      fun before => ?_⟩
    exact wordsThen_append hw hb (by decide) before after

/-- The screen refuses denied expressions. -/
theorem expression_denied {text : String} (h : Denied text) :
    ∃ label, expression text = .error (.unsafeExpression label) := by
  obtain ⟨before, cs, after, htext, hcs⟩ := h
  obtain ⟨p, hp, hmatch⟩ := hcs.matched after
  have hfound : found p.1 none text.toList = true := by
    rw [htext, List.append_assoc]
    exact found_of_suffix hmatch before none
  unfold expression
  split
  · exact ⟨_, rfl⟩
  · rename_i hnone
    exact absurd hfound (List.find?_eq_none.mp hnone p hp)

end Screen

open Screen (Denied)

/-- A denied expression is refused whether or not it can be read, and whatever the variables are. -/
theorem Expr.evaluate_denied {text : String} (h : Denied text) :
    ∃ label, ∀ store, Expr.evaluate text store = .error (.unsafeExpression label) := by
  obtain ⟨label, hlabel⟩ := Screen.expression_denied h
  refine ⟨label, fun store => ?_⟩
  rw [evaluate, hlabel]
  rfl

namespace Engine

variable {σ : Type} {e : Engine} {answer : (w : Wait) → σ → w.Answer × σ} {r : Run} {w : σ}
  {text label : String}

/-! ## Steps -/

/-- The step passes all checks of the action `k` when the variables stand so, and its action sees
`s'`. -/
structure Accepted (e : Engine) (store : Store) (k : Action.Kind) (s s' : Step) : Prop where
  action : e.actionOf s = .ok (.ofKind k)
  ready : e.ready (.ofKind k) store s = .ok s'
  read : ∃ a, Action.read k s' = .ok a

/-- The field of an action whose value is evaluated if the step says so. -/
def flaggedFields : List (Action.Kind × String) :=
  [(.setVar, "value"), (.printMsg, "message"), (.delay, "seconds")]

/-- The step `s` for the action `k` hands this text to the evaluator when the variables stand so. -/
inductive Submits (e : Engine) (store : Store) (s : Step) : Action.Kind → String → Prop
  | expression {v : Value} {text : String} : e.registry.find? "eval" = some (.ofKind .eval) →
      s.fields.names.Nodup → s.action? = some "eval" → s.get? "expression" = some v →
      Template.resolve store e.config.undefinedVariables v = .ok (.str text) →
      Submits e store s .eval text
  | condition {s' : Step} {v : Value} {text : String} : e.Accepted store .condition s s' →
      s.get? "condition" = some v →
      Template.resolve store e.config.undefinedVariables v = .ok (.str text) →
      Submits e store s .condition text
  | flagged {k : Action.Kind} {field : String} {s' : Step} {v w : Value} :
      (k, field) ∈ flaggedFields → e.Accepted store k s s' → s'.flag "eval" = true →
      s.get? field = some v → Template.resolve store e.config.undefinedVariables v = .ok w →
      Submits e store s k w.display

/-- What an action does first is evaluating this text. -/
def Evaluates (text : String) : Action → Prop
  | .assign _ v evaluated | .print v evaluated | .pause v evaluated =>
    evaluated = true ∧ v.display = text
  | .evaluate expression => expression = text
  | .choose condition => condition = some (.str text)
  | _ => False

theorem run_valueOf (v : Value) :
    (valueOf v true).run.run (.answering answer) r w = (Expr.evaluate v.display r.store, r, w) := rfl

theorem run_carryOut_denied {a : Action} (lists : String → Process (Except Outcome Nat))
    (ha : Evaluates text a) {c : Cause} (hx : Expr.evaluate text r.store = .error c) :
    (e.carryOut lists a).run.run (.answering answer) r w = (.error c, r, w) := by
  cases a with
  | assign name v evaluated =>
    obtain ⟨rfl, rfl⟩ := ha
    rw [carryOut, Attempt.run_bind, run_valueOf, hx]
  | print v evaluated =>
    obtain ⟨rfl, rfl⟩ := ha
    rw [carryOut, Attempt.run_bind, run_valueOf, hx]
  | pause v evaluated =>
    obtain ⟨rfl, rfl⟩ := ha
    rw [carryOut, Attempt.run_bind, run_valueOf, hx]
  | evaluate expression =>
    obtain rfl := ha
    rw [carryOut, Attempt.run_bind, run_valueOf]
    rw [show (Value.str expression).display = expression from rfl, hx]
  | choose condition =>
    obtain rfl := ha
    have hcond : conditionHolds (.str text) r.store = .error c := by
      rw [conditionHolds, hx]
      rfl
    -- A condition is read off the run first, which changes nothing.
    rw [carryOut]
    show (Attempt.access .read >>= fun store => _).run.run _ _ _ = _
    rw [Attempt.run_bind, Attempt.run_access]
    dsimp only [Run.Access.perform]
    rw [Attempt.run_bind, Attempt.run_settled, hcond]
  | command | iterate | record | request | merge => exact ha.elim

/-- What a field that is not raw holds for the action. -/
theorem HandedOver.get?_resolved {d : Descriptor} {store : Store} {s s' : Step} {field : String}
    {v w : Value} (h : e.HandedOver d store s s') (ha : field ≠ "action")
    (hd : d.declares field = true) (hr : d.raw.contains field = false) (hv : s.get? field = some v)
    (hw : Template.resolve store e.config.undefinedVariables v = .ok w) :
    s'.get? field = some w := by
  obtain ⟨u, hu, hs⟩ := h.get?_filled ha hd hv
  rw [filled, hr, if_neg Bool.false_ne_true, hw] at hu
  cases hu
  exact hs

/-- A flagged field is what the action evaluates. -/
theorem evaluates_of_read {k : Action.Kind} {field : String} {s : Step} {a : Action} {v : Value}
    (hk : (k, field) ∈ flaggedFields) (hread : Action.read k s = .ok a)
    (hflag : s.flag "eval" = true) (hv : s.get? field = some v) : Evaluates v.display a := by
  simp only [flaggedFields, List.mem_cons, Prod.mk.injEq, List.not_mem_nil, or_false] at hk
  rcases hk with ⟨rfl, rfl⟩ | ⟨rfl, rfl⟩ | ⟨rfl, rfl⟩
  · obtain ⟨_, -, hread⟩ := Except.bind_eq_ok.mp hread
    obtain ⟨_, -, hread⟩ := Except.bind_eq_ok.mp hread
    cases hread
    rw [hv]
    exact ⟨hflag, rfl⟩
  · obtain ⟨_, -, hread⟩ := Except.bind_eq_ok.mp hread
    cases hread
    rw [hv]
    exact ⟨hflag, rfl⟩
  · obtain ⟨_, -, hread⟩ := Except.bind_eq_ok.mp hread
    rw [hflag, hv] at hread
    cases hread
    exact ⟨rfl, rfl⟩

/-- The fields that are handed over were read from the fields of the step. -/
theorem mem_of_fieldsRead {d : Descriptor} {store : Store} {fields out : Entries Value}
    {entry : String × Value} (h : e.fieldsRead d store fields = .ok out) (hm : entry ∈ out) :
    ∃ v, (entry.1, v) ∈ fields ∧ e.filled d store entry.1 v = .ok entry.2 := by
  induction fields generalizing out with
  | nil =>
    cases h
    cases hm
  | cons first rest ih =>
    obtain ⟨name, u⟩ := first
    rw [fieldsRead] at h
    split at h
    · obtain ⟨u', hu, h⟩ := Except.bind_eq_ok.mp h
      obtain ⟨out', hout, h⟩ := Except.bind_eq_ok.mp h
      cases h
      rcases List.mem_cons.mp hm with rfl | hm
      · exact ⟨u, List.mem_cons_self, hu⟩
      · obtain ⟨v, hv, hw⟩ := ih hout hm
        exact ⟨v, List.mem_cons_of_mem _ hv, hw⟩
    · obtain ⟨v, hv, hw⟩ := ih h hm
      exact ⟨v, List.mem_cons_of_mem _ hv, hw⟩

/-- A step that evaluates a text passes all checks. -/
theorem accepted_expression {store : Store} {s : Step} {v : Value}
    (hfind : e.registry.find? "eval" = some (.ofKind .eval)) (hn : s.fields.names.Nodup)
    (ha : s.action? = some "eval") (hv : s.get? "expression" = some v)
    (hw : Template.resolve store e.config.undefinedVariables v = .ok (.str text)) :
    ∃ s', e.actionOf s = .ok (.ofKind .eval) ∧ e.ready (.ofKind .eval) store s = .ok s' ∧
      Action.read .eval s' = .ok (.evaluate text) := by
  -- The expression is the only field this action declares, so it is all that is filled in.
  have hmissing : (Descriptor.ofKind .eval).missing? s = none := by
    refine List.find?_eq_none.mpr fun field hf => ?_
    obtain rfl : field = "expression" := List.mem_singleton.mp hf
    simp [Step.contains, Entries.contains, show s.fields.get? "expression" = some v from hv]
  have hfilled (entry : String × Value) (he : entry ∈ s.fields)
      (hd : (Descriptor.ofKind .eval).declares entry.1 = true) :
      entry.1 = "expression" ∧ e.filled (.ofKind .eval) store entry.1 entry.2 = .ok (.str text) := by
    obtain ⟨name, u⟩ := entry
    obtain rfl : name = "expression" := by
      simpa [Descriptor.declares, Descriptor.ofKind, Action.Kind.fields] using hd
    have hu := Entries.get?_of_mem hn he
    rw [show s.fields.get? "expression" = some v from hv] at hu
    cases hu
    exact ⟨rfl, hw⟩
  obtain ⟨out, hout⟩ : ∃ out, e.fieldsRead (.ofKind .eval) store s.fields = .ok out :=
    fieldsRead_eq_ok fun entry he hd => ⟨_, (hfilled entry he hd).2⟩
  have hand : e.HandedOver (.ofKind .eval) store s (handedOver (s.action?.getD "") out) :=
    ⟨out, hout, rfl⟩
  have hget := hand.get?_resolved (by decide) (by decide) (by decide) hv hw
  generalize hs' : handedOver (s.action?.getD "") out = s' at hand hget
  refine ⟨s', actionOf_eq_ok.mpr ⟨_, ha, hfind, hmissing⟩, ready_eq_ok.mpr ⟨hand, rfl⟩, ?_⟩
  -- What is checked is what was handed over: the field with its text, and the action's name.
  have hwrong (entry : String × Value) (he : entry ∈ s'.fields) :
      ((Action.Kind.eval.fields.find? (·.name == entry.1)).bind fun f => f.refusal? entry.2) =
        none := by
    by_cases hname : entry.1 = "expression"
    · have hmem : entry ∈ out := by
        rw [← hs', handedOver] at he
        rcases List.mem_cons.mp he with rfl | he
        · exact absurd hname (by decide : "action" ≠ "expression")
        · exact (List.mem_filter.mp he).1
      obtain ⟨u, hu, hu'⟩ := mem_of_fieldsRead hout hmem
      rw [(hfilled (entry.1, u) hu (by rw [hname]; decide)).2] at hu'
      rw [← Except.ok.inj hu', hname]
      rfl
    · rw [List.find?_eq_none.mpr, Option.bind_none]
      intro f hf
      obtain rfl := List.mem_singleton.mp hf
      simpa using Ne.symm hname
  have hchecked : checkFields Action.Kind.eval.fields Action.Kind.eval.name s' = .ok () := by
    have hlacking : Action.Kind.eval.fields.findSome? (fun f =>
        if f.required && !s'.contains f.name then some ("missing field `" ++ f.name ++ "`")
        else none) = none := by
      simp [Action.Kind.fields, Step.contains, Entries.contains,
        show s'.fields.get? "expression" = some (.str text) from hget]
    rw [checkFields, fieldsRefusal?, List.findSome?_eq_none_iff.mpr hwrong, hlacking]
    rfl
  show (do checkFields Action.Kind.eval.fields Action.Kind.eval.name s'
           return Action.evaluate ((s'.text? "expression").getD "")) = _
  rw [hchecked, Step.text?, hget]
  rfl

theorem flaggedFields_declared : ∀ p ∈ flaggedFields,
    p.2 ≠ "action" ∧ (Descriptor.ofKind p.1).declares p.2 = true ∧
      (Descriptor.ofKind p.1).raw.contains p.2 = false := by decide

/-- A step that hands a text to the evaluator is made ready, and does so first. -/
theorem Submits.evaluates {store : Store} {s : Step} {k : Action.Kind}
    (h : e.Submits store s k text) :
    ∃ s' a, e.actionOf s = .ok (.ofKind k) ∧ e.ready (.ofKind k) store s = .ok s' ∧
      Action.read k s' = .ok a ∧ Evaluates text a := by
  cases h with
  | expression hfind hn ha hv hw =>
    obtain ⟨s', hactionOf, hready, hread⟩ := accepted_expression hfind hn ha hv hw
    exact ⟨s', _, hactionOf, hready, hread, rfl⟩
  | @condition s' v text hs hv hw =>
    obtain ⟨a, hread⟩ := hs.read
    obtain ⟨rfl, -⟩ := Action.read_condition hread
    have hget := (ready_eq_ok.mp hs.ready).1.get?_resolved (by decide) (by decide) (by decide) hv hw
    exact ⟨s', _, hs.action, hs.ready, hread, hget⟩
  | @flagged k field s' v w hk hs hflag hv hw =>
    obtain ⟨a, hread⟩ := hs.read
    obtain ⟨hname, hd, hraw⟩ := flaggedFields_declared _ hk
    have hget := (ready_eq_ok.mp hs.ready).1.get?_resolved hname hd hraw hv hw
    exact ⟨s', a, hs.action, hs.ready, hread, evaluates_of_read hk hread hflag hget⟩

/-- A step that hands a denied expression to the evaluator has no effect but its failure. -/
theorem run_dispatch_denied {s : Step} {k : Action.Kind} (hr : r.cancelled = false)
    (hs : e.Submits r.store s k text) {c : Cause} (hx : Expr.evaluate text r.store = .error c) :
    (e.dispatch s).run (.answering answer) r w =
      (e.failure (some k.name) c, r.log ⟨k.name, e.failure (some k.name) c⟩, w) := by
  obtain ⟨s', a, hactionOf, hready, hread, ha⟩ := hs.evaluates
  rw [run_dispatch_prepared hr hactionOf hready]
  have hhandle : (e.handle (e.runField s.fields) (.ofKind k) s').run.run (.answering answer) r w =
      (.error c, r, w) := by
    show (Attempt.settled (Action.read k s') >>= fun a => _).run.run _ _ _ = _
    rw [Attempt.run_bind, Attempt.run_settled, hread]
    exact run_carryOut_denied _ ha hx
  rw [hhandle]
  rfl

/-! ## Loops -/

/-- So many passes of a loop with this condition went well, and led from one state to another. -/
inductive Passed (e : Engine) (answer : (w : Wait) → σ → w.Answer × σ) (condition : Value)
    (body : Process (Except Outcome Nat)) : Nat → Run → σ → Run → σ → Prop
  | none {r : Run} {w : σ} : Passed e answer condition body 0 r w r w
  | pass {n m : Nat} {r r₁ r' : Run} {w w₁ w' : σ} {v : Value} :
      Template.resolve r.store e.config.undefinedVariables condition = .ok v →
      conditionHolds v r.store = .ok true → body.run (.answering answer) r w = (.ok m, r₁, w₁) →
      Passed e answer condition body n r₁ w₁ r' w' →
      Passed e answer condition body (n + 1) r w r' w'

/-- The truth of a condition that is resolved anew. -/
def test (e : Engine) (condition : Value) (store : Store) : Except Cause Bool := do
  conditionHolds (← Template.resolve store e.config.undefinedVariables condition) store

theorem run_mayPass (condition : Value) (done : Nat) (hr : r.cancelled = false) :
    (e.mayPass (.holding condition) done).run.run (.answering answer) r w =
      (e.test condition r.store, r, w) := by
  unfold mayPass test
  rw [Attempt.run_bind, Attempt.run_access]
  simp only [Run.Access.perform, hr, Bool.false_eq_true, if_false]
  show (Attempt.access .read >>= fun store => _).run.run _ _ _ = _
  rw [Attempt.run_bind, Attempt.run_access]
  dsimp only [Run.Access.perform]
  rw [Attempt.run_bind, Attempt.run_settled]
  cases Template.resolve r.store e.config.undefinedVariables condition with
  | error c => rfl
  | ok v => rfl

variable {condition : Value} {body : Process (Except Outcome Nat)} {n : Nat} {r' : Run} {w' : σ}
  {c : Cause}

/-- A test that fails ends the loop, and does nothing else. -/
theorem run_passes_test {limit done left : Nat}
    (h : e.Passed answer condition body n r w r' w') (hr : r.cancelled = false) (hn : n ≤ left)
    (hc : e.test condition r'.store = .error c) :
    (e.passes (.holding condition) limit body done left).run.run (.answering answer) r w =
      (.error c, r', w') := by
  induction h generalizing done left with
  | none =>
    cases left with
    | zero => rw [passes, Attempt.run_bind, run_mayPass _ _ hr, hc]
    | succ left => rw [passes, Attempt.run_bind, run_mayPass _ _ hr, hc]
  | @pass n m r r₁ r' w w₁ w' v hv hholds hbody _ ih =>
    obtain ⟨left, rfl⟩ : ∃ k, left = k + 1 := ⟨left - 1, by omega⟩
    have htest : e.test condition r.store = .ok true := by
      rw [test, hv]
      exact hholds
    have hr₁ : r₁.cancelled = false := by
      rw [← hr, ← Process.cancelled_run answer body r w, hbody]
    rw [passes, Attempt.run_bind, run_mayPass _ _ hr, htest]
    show (ExceptT.lift body >>= fun result => _).run.run _ _ _ = _
    rw [Attempt.run_bind, Attempt.run_lift, hbody]
    exact ih hr₁ (by omega) hc

/-- A loop with a condition goes on as long as it holds. -/
theorem read_loop_holding {s : Step} {a : Action} (h : Action.read .loop s = .ok a)
    (hc : s.get? "condition" = some condition) :
    ∃ limit, Action.loopLimit s = .ok limit ∧ a = .iterate (.holding condition) limit := by
  obtain ⟨mode, limit, rfl, hlimit, hmode, -⟩ := Action.read_loop h
  rw [Action.loopMode_holding hmode hc]
  exact ⟨limit, hlimit, rfl⟩

/-- A loop step whose condition cannot be told after some passes. -/
theorem run_dispatch_test {s s' : Step} {ts : List Step} {limit : Option Nat}
    (hr : r.cancelled = false) (hs : e.Accepted r.store .loop s s')
    (hts : s.children? "loop_steps" = some (.ok ts)) (hcond : s.get? "condition" = some condition)
    (hl : Action.loopLimit s' = .ok limit) (hn : n ≤ limit.getD e.config.maxLoopIterations)
    (h : e.Passed answer condition (e.runSteps ts) n r w r' w')
    (hc : e.test condition r'.store = .error c) :
    (e.dispatch s).run (.answering answer) r w =
      (e.failure (some "loop") c, r'.log ⟨"loop", e.failure (some "loop") c⟩, w') := by
  obtain ⟨a, hread⟩ := hs.read
  have hcond' : s'.get? "condition" = some condition := by
    rw [(ready_eq_ok.mp hs.ready).1.get?_raw (by decide) (by decide) (by decide), hcond]
  obtain ⟨limit', hl', rfl⟩ := read_loop_holding hread hcond'
  obtain rfl : limit' = limit := Except.ok.inj (hl'.symm.trans hl)
  rw [run_dispatch_prepared hr hs.action hs.ready]
  have hhandle : (e.handle (e.runField s.fields) (.ofKind .loop) s').run.run (.answering answer)
      r w = (.error c, r', w') := by
    show (Attempt.settled (Action.read .loop s') >>= fun a => _).run.run _ _ _ = _
    rw [Attempt.run_bind, Attempt.run_settled, hread]
    dsimp only [carryOut]
    rw [Attempt.run_bind, runField_children hts, run_passes_test h hr hn hc]
  rw [hhandle]
  rfl

end Engine

/-! ## Lines -/

namespace Snippet

variable {σ : Type} {answer : (w : Wait) → σ → w.Answer × σ} {r : Run} {w : σ} {config : Config}

theorem run_statementsFrom_cons (done index : Nat) (line : String) (rest : List (Nat × String))
    (hr : r.cancelled = false) :
    (statementsFrom config done ((index, line) :: rest)).run (.answering answer) r w =
      let (result, r₁, w₁) := (carryOutLine line).run.run (.answering answer) (r.enter index)
        (answer .turn w).2
      let o := outcome config index result
      if o.isError then (.error o, r₁.log ⟨actionName, o⟩, w₁)
      else (statementsFrom config (done + 1) rest).run (.answering answer)
        (r₁.log ⟨actionName, o⟩) w₁ := by
  rw [statementsFrom_cons, Process.run_wait, Process.run_access]
  show (if r.cancelled then _ else _ : Process (Except Outcome String)).run (.answering answer) r
    (answer .turn w).2 = _
  rw [hr, if_neg Bool.false_ne_true]
  show (Process.bind _ _).run (.answering answer) (r.enter index) (answer .turn w).2 = _
  rw [Process.run_bind]
  obtain ⟨result, r₁, w₁⟩ := (carryOutLine line).run.run (.answering answer) (r.enter index)
    (answer .turn w).2
  show (if (outcome config index result).isError then _ else _ :
    Process (Except Outcome String)).run _ _ _ = _
  dsimp only
  split
  · rfl
  · rfl

/-- The lines of a snippet are carried out one after the other, up to the first that fails. -/
theorem run_statementsFrom_append (done : Nat) (before rest : List (Nat × String))
    (hr : r.cancelled = false) :
    (statementsFrom config done (before ++ rest)).run (.answering answer) r w =
      match (statementsFrom config done before).run (.answering answer) r w with
      | (.error o, r, w) => (.error o, r, w)
      | (.ok _, r, w) =>
        (statementsFrom config (done + before.length) rest).run (.answering answer) r w := by
  induction before generalizing done r w with
  | nil => rfl
  | cons entry before ih =>
    obtain ⟨index, line⟩ := entry
    -- The first line is shown and carried out alike in both; then the lines behind it are fewer.
    rw [List.cons_append, run_statementsFrom_cons _ _ _ _ hr, run_statementsFrom_cons _ _ _ _ hr]
    have hr₁ := Process.cancelled_run answer (carryOutLine line).run (r.enter index)
      (answer .turn w).2
    rcases hx : (carryOutLine line).run.run (.answering answer) (r.enter index)
      (answer .turn w).2 with ⟨result, r₁, w₁⟩
    rw [hx] at hr₁
    dsimp only
    split
    · rfl
    · rw [ih, List.length_cons, Nat.add_right_comm, Nat.add_assoc]
      have hr' := (Run.cancelled_perform (.enter index) r).trans hr
      exact (Run.cancelled_perform (.log _) r₁).trans (hr₁.trans hr')

/-- A line that the screen refuses ends the snippet when its turn has come. -/
theorem run_process_screened {source line : String} {before rest : List (Nat × String)}
    {index : Nat} {message : String} {r' : Run} {w' : σ} {c : Cause} (hr : r.cancelled = false)
    (hsource : statements source = before ++ (index, line) :: rest)
    (hbefore : (statementsFrom config 0 before).run (.answering answer) r w =
      (.ok message, r', w')) (hc : screen line = .error c) :
    (Snippet.process config source).run (.answering answer) r w =
      (.error (failure config index c),
        (r'.enter index).log ⟨actionName, failure config index c⟩, (answer .turn w').2) := by
  have hr' : r'.cancelled = false := by
    rw [← hr, ← Process.cancelled_run answer (statementsFrom config 0 before) r w, hbefore]
  have hline : (carryOutLine line).run.run (.answering answer) (r'.enter index)
      (answer .turn w').2 = (.error c, r'.enter index, (answer .turn w').2) := by
    rw [carryOutLine, Attempt.run_bind, Attempt.run_settled, hc]
  rw [Snippet.process, hsource, run_statementsFrom_append _ _ _ hr, hbefore]
  dsimp only
  rw [run_statementsFrom_cons _ _ _ _ hr', hline]
  rfl

end Snippet

/-! ## Denied expressions -/

namespace Engine

variable {σ : Type}

/-- A denied expression is refused by the evaluator wherever the forbidden text stands in it. So
every step that hands one over to be evaluated fails with the refusal, a loop fails at the first
test of its condition that is one, and a snippet at the first line that is one; and nothing is
written, printed or recorded on the way. The expression counts as it is after placeholders have been
replaced. -/
theorem denied_expressions_fail (e : Engine) (answer : (w : Wait) → σ → w.Answer × σ) (r : Run)
    (w : σ) (hr : r.cancelled = false) :
    (∀ before forbidden after : String, Screen.Forbidden forbidden.toList → ∃ label, ∀ store,
      Expr.evaluate (before ++ forbidden ++ after) store = .error (.unsafeExpression label)) ∧
    ∀ text, Denied text → ∃ label,
      let c : Cause := .unsafeExpression label
      (∀ s k, e.Submits r.store s k text →
        (e.dispatch s).run (.answering answer) r w =
          (e.failure (some k.name) c, r.log ⟨k.name, e.failure (some k.name) c⟩, w)) ∧
      (∀ s s' ts condition limit n r' w', e.Accepted r.store .loop s s' →
        s.children? "loop_steps" = some (.ok ts) → s.get? "condition" = some condition →
        Action.loopLimit s' = .ok limit → n ≤ limit.getD e.config.maxLoopIterations →
        e.Passed answer condition (e.runSteps ts) n r w r' w' →
        Template.resolve r'.store e.config.undefinedVariables condition = .ok (.str text) →
        (e.dispatch s).run (.answering answer) r w =
          (e.failure (some "loop") c, r'.log ⟨"loop", e.failure (some "loop") c⟩, w')) ∧
      (∀ source before index rest message r' w',
        Snippet.statements source = before ++ (index, text) :: rest →
        (Snippet.statementsFrom e.config 0 before).run (.answering answer) r w =
          (.ok message, r', w') →
        let o := Snippet.failure e.config index c
        (Snippet.process e.config source).run (.answering answer) r w =
          (.error o, (r'.enter index).log ⟨Snippet.actionName, o⟩, (answer .turn w').2)) := by
  refine ⟨fun before forbidden after h => Expr.evaluate_denied ?_, fun text h => ?_⟩
  · refine ⟨before.toList, forbidden.toList, after.toList, ?_, h⟩
    simp only [String.toList_append]
  · obtain ⟨label, hlabel⟩ := Expr.evaluate_denied h
    obtain ⟨label', hscreen⟩ := Screen.expression_denied h
    -- The evaluator screens the text in the same way, so both labels are the first pattern found.
    obtain rfl : label = label' := by
      have := hlabel []
      rw [Expr.evaluate, hscreen] at this
      cases this
      rfl
    refine ⟨label, fun s k hs => run_dispatch_denied hr hs (hlabel _), ?_, ?_⟩
    · intro s s' ts condition limit n r' w' hs hts hcond hl hn hpassed hv
      refine run_dispatch_test hr hs hts hcond hl hn hpassed ?_
      rw [test, hv]
      show (Expr.evaluate text r'.store).map Value.truthy = _
      rw [hlabel]
      rfl
    · intro source before index rest message r' w' hsource hbefore
      refine Snippet.run_process_screened hr hsource hbefore ?_
      rw [Snippet.screen, hscreen]
      rfl

/-- A variable brings a forbidden text into an expression. -/
theorem denied_expressions_fail_filled :
    let e : Engine := {}
    let r := (Run.create "filled" {} e.config).seed [("x", .str "().__class__")]
    let s : Step := ⟨[("action", .str "eval"), ("expression", .str "${x}")]⟩
    r.cancelled = false ∧ Denied "().__class__" ∧ e.Submits r.store s .eval "().__class__" ∧
      ∃ label, ((e.dispatch s).run (.answering Wait.quiet) r ()).1 =
        e.failure (some "eval") (.unsafeExpression label) := by
  intro e r s
  have hdenied : Denied "().__class__" :=
    ⟨"().".toList, _, "class__".toList, rfl, .underscores⟩
  have hs : e.Submits r.store s .eval "().__class__" := by
    refine .expression rfl (by decide) rfl rfl ?_
    have hfilled : Template.filledText [("x", .str "().__class__")] "${x}" = "().__class__" := by
      decide +kernel
    have hresolve := Template.resolve_eq [("x", .str "().__class__")] .preserve (.str "${x}")
    rw [Value.mapTexts, hfilled] at hresolve
    exact hresolve
  obtain ⟨-, h⟩ := denied_expressions_fail e Wait.quiet r () rfl
  obtain ⟨label, hsteps, -⟩ := h _ hdenied
  exact ⟨rfl, hdenied, hs, label, congrArg Prod.fst (hsteps s _ hs)⟩

/-- What is refused before its expression is reached, skipped or cancelled fails otherwise, or not
at all: a condition whose lists are no lists, a comment, a step of a cancelled run. -/
theorem unreached_expressions :
    let e : Engine := {}
    let r := Run.create "unreached" {} e.config
    let choice : Step := ⟨[("action", .str "condition"), ("condition", .str "__"),
      ("if_true", .str "oops"), ("if_false", .list [])]⟩
    let evaluation : Step := ⟨[("action", .str "eval"), ("expression", .str "__")]⟩
    Denied "__" ∧ Denied "# __" ∧
      Template.resolve r.store e.config.undefinedVariables (.str "__") = .ok (.str "__") ∧
      ((e.dispatch choice).run (.answering Wait.quiet) r ()).1.category = some .invalidField ∧
      ((Snippet.process e.config "# __").run (.answering Wait.quiet) r ()).1.isOk = true ∧
      ((e.dispatch evaluation).run (.answering Wait.quiet) r.cancel ()).1.category =
        some .cancelled := by
  intro e r choice evaluation
  have hresolve : Template.resolve [] .preserve (.str "__") = .ok (.str "__") :=
    Template.resolve_str_plain [] .preserve (Template.plain_of_dollar_notMem (by decide))
  have hfields : e.fieldsRead (.ofKind .condition) [] choice.fields =
      (Template.resolve [] .preserve (.str "__")).bind fun v =>
        .ok [("condition", v), ("if_true", .str "oops"), ("if_false", .list [])] := rfl
  have hready : e.ready (.ofKind .condition) r.store choice =
      .error (.invalidField "condition" "if_true"
        "expected a list of step objects (entry 0 is not an object)") := by
    rw [ready, show r.store = [] from rfl, hfields, hresolve]
    rfl
  have hcomment : Snippet.statements "# __" = [] := by decide +kernel
  refine ⟨⟨[], _, [], rfl, .underscores⟩, ⟨"# ".toList, _, [], rfl, .underscores⟩, hresolve, ?_, ?_,
    rfl⟩
  · -- The lists are checked before the condition is looked at.
    rw [run_dispatch_unready rfl rfl hready]
    rfl
  · -- A comment is no statement, so nothing is screened.
    rw [Snippet.process, hcomment]
    rfl

end Engine

end Stepwise
