import Stepwise.Issue
import Stepwise.Run.Dispatch
import Stepwise.Proofs.Except
import Stepwise.Proofs.ExprTree

/-!
# Why things fail

Each part of a run has causes of its own: evaluation, placeholders, the fields of a step, and what
an action meets when it is carried out. The lemmas here say which they are.

* `Cause.OfEvaluation`, `Cause.OfFields`, `Cause.OfRun`: the classes of causes.
* `Expr.evaluate_failsOnly`, `Template.resolve_failsOnly`: texts and data.
* `Action.read_failsOnly`: a step that has its required fields and whose lists hold steps only.
-/

namespace Stepwise

/-! ## Causes -/

/-- A text was refused, could not be read, or has no value. -/
def Cause.OfEvaluation : Cause → Prop
  | .unsafeExpression _ | .expression _ | .undefinedVariable _ => True
  | _ => False

/-- A text could not be read, or has no value. -/
def Cause.OfExpression : Cause → Prop
  | .expression _ | .undefinedVariable _ => True
  | _ => False

theorem Cause.OfExpression.ofEvaluation {c : Cause} (h : c.OfExpression) : c.OfEvaluation := by
  cases c <;> first | exact trivial | exact h.elim

/-- The fields that are checked once more, or only, when the action is carried out. -/
def lateFields : List (Action.Kind × String) :=
  [(.executeCommand, "command"), (.httpRequest, "proxy"), (.delay, "seconds"),
   (.combineData, "data_sources")]

/-- A cause that comes up only when an action is carried out. -/
def Cause.OfRun : Cause → Prop
  | .unsafeExpression _ | .expression _ | .undefinedVariable _ | .cancelled | .commandFailed ..
  | .commandTimeout .. | .httpTransport _ | .jsonDecode _ | .loopLimitExceeded _ => True
  | .invalidField action field _ => (action, field) ∈ lateFields.map fun p => (p.1.name, p.2)
  | _ => False

theorem Cause.ofRun_invalidField {k : Action.Kind} {field : String} (reason : String)
    (h : (k, field) ∈ lateFields) : (Cause.invalidField k.name field reason).OfRun := by
  show (k.name, field) ∈ lateFields.map fun p => (p.1.name, p.2)
  exact List.mem_map.mpr ⟨_, h, rfl⟩

theorem Cause.OfEvaluation.ofRun {c : Cause} (h : c.OfEvaluation) : c.OfRun := by
  cases c <;> first | exact trivial | exact h.elim

namespace Expr

section Evaluation

variable {P : Cause → Prop} {store : Store}

theorem lift_failsOnly {α : Type} (hfault : ∀ f, P (.expression f)) (x : Except EvalFault α) :
    Except.FailsOnly P (lift x) := by
  cases x with
  | ok a => exact .ok a
  | error f => exact .error (hfault _)

theorem evalAll_failsOnly {es : List Expr} (h : ∀ e ∈ es, Except.FailsOnly P (eval store e)) :
    Except.FailsOnly P (evalAll store es) := by
  induction es with
  | nil =>
    rw [evalAll]
    exact .ok _
  | cons e es ih =>
    obtain ⟨he, hes⟩ := List.forall_mem_cons.mp h
    rw [evalAll]
    refine he.bind fun v _ => ?_
    exact (ih hes).bind fun vs _ => .pure _

theorem evalLinks_failsOnly (hfault : ∀ f, P (.expression f)) {links : List (Relation × Expr)}
    (h : ∀ e ∈ links.map Prod.snd, Except.FailsOnly P (eval store e)) (left : Value) :
    Except.FailsOnly P (evalLinks store left links) := by
  induction links generalizing left with
  | nil =>
    rw [evalLinks]
    exact .ok _
  | cons link links ih =>
    obtain ⟨he, hes⟩ := List.forall_mem_cons.mp h
    rw [evalLinks]
    refine he.bind fun right _ => ?_
    refine (lift_failsOnly hfault _).bind fun holds _ => ?_
    split
    · exact ih hes right
    · exact .pure _

/-- Evaluation fails with a fault of an operation, or for a variable of the tree that the store
does not have. -/
theorem eval_failsOnly (hfault : ∀ f, P (.expression f)) (e : Expr)
    (hnames : ∀ name ∈ e.names, store.get? name = none → P (.undefinedVariable name)) :
    Except.FailsOnly P (eval store e) := by
  -- By induction on the tree: the operands fail in these ways only, and each node adds its faults.
  induction e using Expr.induct with
  | step e ih =>
    have hoperands : ∀ x ∈ e.operands, Except.FailsOnly P (eval store x) := fun x hx =>
      ih x hx fun name hname => hnames name (mem_names.mpr (.inr ⟨x, hx, hname⟩))
    cases e with
    | lit v =>
      rw [eval]
      exact .ok v
    | var name =>
      rw [eval]
      split
      · exact .ok _
      · next hnone => exact .error (hnames name (mem_names.mpr (.inl rfl)) hnone)
    | list items =>
      rw [eval]
      exact .map (evalAll_failsOnly hoperands)
    | neg operand =>
      rw [eval]
      refine (hoperands operand (by simp [operands])).bind fun v _ => ?_
      split
      · exact lift_failsOnly hfault _
      · exact lift_failsOnly hfault _
    | not operand =>
      rw [eval]
      exact (hoperands operand (by simp [operands])).bind fun v _ => .pure _
    | and left right =>
      rw [eval]
      refine (hoperands left (by simp [operands])).bind fun v _ => ?_
      split
      · exact hoperands right (by simp [operands])
      · exact .pure _
    | or left right =>
      rw [eval]
      refine (hoperands left (by simp [operands])).bind fun v _ => ?_
      split
      · exact .pure _
      · exact hoperands right (by simp [operands])
    | arith op left right =>
      rw [eval]
      refine (hoperands left (by simp [operands])).bind fun a _ => ?_
      exact (hoperands right (by simp [operands])).bind fun b _ => lift_failsOnly hfault _
    | compare first links =>
      obtain ⟨hfirst, hlinks⟩ := List.forall_mem_cons.mp hoperands
      rw [eval]
      exact hfirst.bind fun a _ => evalLinks_failsOnly hfault hlinks a
    | index target position =>
      rw [eval]
      refine (hoperands target (by simp [operands])).bind fun t _ => ?_
      exact (hoperands position (by simp [operands])).bind fun i _ => lift_failsOnly hfault _
    | call function arguments =>
      rw [eval]
      exact (evalAll_failsOnly hoperands).bind fun vs _ => lift_failsOnly hfault _

theorem read_failsOnly (hfault : ∀ f, P (.expression f)) (text : String) :
    Except.FailsOnly P (read text) := by
  unfold read
  split
  · exact .ok _
  · exact .error (hfault _)

theorem screen_failsOnly (hdenied : ∀ reason, P (.unsafeExpression reason)) (text : String) :
    Except.FailsOnly P (Screen.expression text) := by
  unfold Screen.expression
  split
  · exact .error (hdenied _)
  · exact .ok _

end Evaluation

/-- A text that passes the screen is not refused. -/
theorem evaluate_failsOnly_of_screened {text : String} (h : Screen.expression text = .ok ())
    (store : Store) : Except.FailsOnly Cause.OfExpression (evaluate text store) := by
  unfold evaluate
  rw [h]
  refine .bind (.ok ()) fun _ _ => ?_
  refine .bind (read_failsOnly (fun _ => trivial) text) fun e _ => ?_
  exact eval_failsOnly (fun _ => trivial) e fun _ _ _ => trivial

theorem evaluate_failsOnly (text : String) (store : Store) :
    Except.FailsOnly Cause.OfEvaluation (evaluate text store) := by
  cases h : Screen.expression text with
  | ok _ =>
    exact (evaluate_failsOnly_of_screened h store).mono fun _ => Cause.OfExpression.ofEvaluation
  | error c =>
    have hc := screen_failsOnly (P := Cause.OfEvaluation) (fun _ => trivial) text c h
    unfold evaluate
    rw [h]
    exact .error hc

end Expr

namespace Template

theorem fill_failsOnly (store : Store) (policy : Policy) (text : String) :
    Except.FailsOnly Cause.OfEvaluation (fill store policy text) := by
  unfold fill
  dsimp only
  split
  · exact .error trivial
  · exact .ok _

mutual

theorem resolve_failsOnly (store : Store) (policy : Policy) :
    ∀ v : Value, Except.FailsOnly Cause.OfEvaluation (resolve store policy v)
  | .str s => by
    rw [resolve]
    exact .map (fill_failsOnly store policy s)
  | .list items => by
    rw [resolve]
    exact .map (resolveItems_failsOnly store policy items)
  | .dict entries => by
    rw [resolve]
    exact .map (resolveEntries_failsOnly store policy entries)
  | .null | .bool _ | .int _ | .float _ => by
    rw [resolve]
    · exact .ok _
    all_goals simp

theorem resolveItems_failsOnly (store : Store) (policy : Policy) :
    ∀ vs : List Value, Except.FailsOnly Cause.OfEvaluation (resolveItems store policy vs)
  | [] => by
    rw [resolveItems]
    exact .ok _
  | v :: vs => by
    rw [resolveItems]
    refine .bind (resolve_failsOnly store policy v) fun _ _ => ?_
    exact .bind (resolveItems_failsOnly store policy vs) fun _ _ => .pure _

theorem resolveEntries_failsOnly (store : Store) (policy : Policy) :
    ∀ entries : List (String × Value),
      Except.FailsOnly Cause.OfEvaluation (resolveEntries store policy entries)
  | [] => by
    rw [resolveEntries]
    exact .ok _
  | (name, v) :: rest => by
    rw [resolveEntries]
    refine .bind (resolve_failsOnly store policy v) fun _ _ => ?_
    exact .bind (resolveEntries_failsOnly store policy rest) fun _ _ => .pure _

end

end Template

/-! ## The fields of a step -/

/-- Every refusal of a value begins in one of two ways. -/
theorem Field.head?_refusal? {f : Field} {v : Value} {reason : String}
    (h : f.refusal? v = some reason) :
    reason.toList.head? = some 'i' ∨ reason.toList.head? = some 'e' := by
  have hu : ∀ expected, Field.unexpected v expected = some reason →
      reason.toList.head? = some 'i' ∨ reason.toList.head? = some 'e' := by
    intro expected hr
    cases hr
    exact .inl (by simp [String.toList_append])
  unfold Field.refusal? at h
  split at h
  · split at h
    any_goals split at h
    any_goals exact hu _ h
    all_goals cases h
  · split at h
    any_goals exact hu _ h
    any_goals split at h
    any_goals cases h
    all_goals exact .inr (by simp [String.toList_append])

/-- A field that is missing is told in another way. -/
theorem Field.refusal?_ne_missing {f : Field} {v : Value} {reason : String}
    (h : f.refusal? v = some reason) (name : String) :
    reason ≠ "missing field `" ++ name ++ "`" := by
  rintro rfl
  have hm := Field.head?_refusal? h
  simp [String.toList_append] at hm

namespace Action

/-- The step has the required fields of an action, and the fields in which the action holds lists
of steps hold nothing else. -/
structure Kind.Complete (k : Kind) (s : Step) : Prop where
  required : ∀ f ∈ k.fields, f.required = true → s.contains f.name = true
  lists : ∀ field ∈ childFields, (Descriptor.ofKind k).declares field = true →
    ∃ ts, s.children? field = some (.ok ts)

/-- A loop without a condition and a count, or a trigger without its time, interval or event. -/
inductive Unset (s : Step) : Kind → String → Prop
  | loop : s.get? "condition" = none → s.number? "iterations" = none → Unset s .loop "condition"
  | text {kind : TriggerKind} {field : String} :
      TriggerKind.ofText? ((s.text? "type").getD "") = some kind →
      (kind, field) ∈ [(.timeBased, "time"), (.eventBased, "event")] →
      (∀ text, s.text? field = some text → Text.isAllBlank text = true) → Unset s .trigger field
  | interval : TriggerKind.ofText? ((s.text? "type").getD "") = some .interval →
      s.number? "interval" = none → Unset s .trigger "interval"

end Action

/-- A cause that lies in what the fields of a step hold, and neither in a required field that is not
there nor in a list of steps that is none. -/
def Cause.OfFields (k : Action.Kind) (s : Step) : Cause → Prop
  | .unsafeCommand _ => True
  | .invalidField _ field reason =>
    field ∉ childFields ∧ (field = "step" → ∀ name, reason ≠ "missing field `" ++ name ++ "`")
  | .missingField action field => k.name = action ∧ Action.Unset s k field
  | _ => False

namespace Action

variable {k : Kind} {s : Step}

theorem checkFields_failsOnly (h : k.Complete s) :
    Except.FailsOnly (Cause.OfFields k s) (checkFields k.fields k.name s) := by
  unfold checkFields
  split
  · rename_i reason hr
    refine .error ⟨by decide, fun _ name => ?_⟩
    have hl : k.fields.findSome? (fun f =>
        if f.required && !s.contains f.name then some ("missing field `" ++ f.name ++ "`")
        else none) = none := by
      rw [List.findSome?_eq_none_iff]
      intro f hf
      rw [if_neg]
      intro hc
      obtain ⟨hreq, hc⟩ := Bool.and_eq_true_iff.mp hc
      rw [h.required f hf hreq] at hc
      cases hc
    unfold fieldsRefusal? at hr
    simp only [hl, Option.orElse_eq_orElse, Option.orElse_eq_or, Option.or_none] at hr
    obtain ⟨entry, -, hw⟩ := List.exists_of_findSome?_eq_some hr
    obtain ⟨f, -, hv⟩ := Option.bind_eq_some_iff.mp hw
    exact Field.refusal?_ne_missing hv name
  · exact .ok _

theorem invalid_failsOnly {α : Type} {k' : Kind} {field reason : String}
    (h : field ∉ "step" :: childFields) :
    Except.FailsOnly (Cause.OfFields k s) (invalid k' field reason : Except Cause α) := by
  rw [List.mem_cons, not_or] at h
  exact .error ⟨h.2, fun hs => absurd hs h.1⟩

theorem checkName_failsOnly {k' : Kind} {field name : String} (h : field ∉ "step" :: childFields) :
    Except.FailsOnly (Cause.OfFields k s) (checkName k' field name) := by
  unfold checkName
  split
  · exact .ok _
  · exact invalid_failsOnly h

theorem seconds_failsOnly (v : Value) : Except.FailsOnly (Cause.OfFields k s) (seconds v) := by
  unfold seconds
  split
  · split
    · exact .ok _
    · exact invalid_failsOnly (by decide)
  · exact invalid_failsOnly (by decide)

theorem whole_failsOnly {field : String} (least : Nat) (x : Float)
    (h : field ∉ "step" :: childFields) :
    Except.FailsOnly (Cause.OfFields k s) (whole field least x) := by
  unfold whole
  split
  · exact .ok _
  · exact invalid_failsOnly h

/-- A list of steps that is one is read. -/
theorem children_eq_ok {field : String} (action : String) {ts : List Step}
    (h : s.children? field = some (.ok ts)) : s.children field action = .ok ts := by
  rw [Step.children, h]

theorem Kind.Complete.children (h : k.Complete s) {field : String} (action : String)
    (hf : field ∈ childFields) (hd : (Descriptor.ofKind k).declares field = true) :
    Except.FailsOnly (Cause.OfFields k s) (s.children field action) := by
  obtain ⟨ts, hts⟩ := h.lists field hf hd
  rw [children_eq_ok action hts]
  exact .ok ts

theorem loopLimit_failsOnly : Except.FailsOnly (Cause.OfFields k s) (loopLimit s) := by
  unfold loopLimit
  split
  · exact .map (whole_failsOnly _ _ (by decide))
  · exact .ok _

theorem loopMode_failsOnly : Except.FailsOnly (Cause.OfFields .loop s) (loopMode s) := by
  unfold loopMode
  split
  · exact invalid_failsOnly (by decide)
  · exact .ok _
  · exact .map (whole_failsOnly _ _ (by decide))
  · rename_i hc hn
    exact .error ⟨rfl, .loop hc hn⟩

theorem triggerText_failsOnly {kind : TriggerKind} {field : String}
    (hk : TriggerKind.ofText? ((s.text? "type").getD "") = some kind)
    (hf : (kind, field) ∈ [(.timeBased, "time"), (.eventBased, "event")]) :
    Except.FailsOnly (Cause.OfFields .trigger s) (triggerText s field) := by
  unfold triggerText
  split
  · rename_i text ht
    split
    · rename_i hb
      refine .error ⟨rfl, .text hk hf fun t h => ?_⟩
      rw [ht] at h
      cases h
      exact hb
    · exact .ok _
  · rename_i ht
    refine .error ⟨rfl, .text hk hf fun t h => ?_⟩
    rw [ht] at h
    cases h

theorem triggerSetting_failsOnly {kind : TriggerKind}
    (hk : TriggerKind.ofText? ((s.text? "type").getD "") = some kind) :
    Except.FailsOnly (Cause.OfFields .trigger s) (triggerSetting kind s) := by
  unfold triggerSetting
  split
  · exact .bind (triggerText_failsOnly hk (by decide)) fun _ _ => .pure _
  · split
    · split
      · exact .ok _
      · exact invalid_failsOnly (by decide)
    · rename_i hn
      exact .error ⟨rfl, .interval hk hn⟩
  · exact .bind (triggerText_failsOnly hk (by decide)) fun _ _ => .pure _

theorem readTrigger_failsOnly (h : Kind.trigger.Complete s) :
    Except.FailsOnly (Cause.OfFields .trigger s) (readTrigger s) := by
  unfold readTrigger
  refine .bind (h.children _ (by decide) (by decide)) fun _ _ => ?_
  refine .bind (checkFields_failsOnly h) fun _ _ => ?_
  dsimp only
  split
  · exact invalid_failsOnly (by decide)
  · rename_i kind hk
    exact .bind (triggerSetting_failsOnly hk) fun _ _ => .pure _

theorem command_failsOnly (text : String) :
    Except.FailsOnly (Cause.OfFields k s) (Screen.command text) := by
  unfold Screen.command
  split
  · exact .error trivial
  · exact .ok _

theorem readCommand_failsOnly (h : Kind.executeCommand.Complete s) :
    Except.FailsOnly (Cause.OfFields .executeCommand s) (readCommand s) := by
  unfold readCommand
  refine .bind (checkFields_failsOnly h) fun _ _ => ?_
  split
  · refine .bind (command_failsOnly _) fun _ _ => ?_
    exact .guard (invalid_failsOnly (by decide)) (.pure _)
  · exact invalid_failsOnly (by decide)

end Action

namespace Http.Request

variable {k : Action.Kind} {s : Step}

theorem setHeader_failsOnly {field name value : String} {headers : Entries String}
    (h : field ∉ "step" :: childFields) :
    Except.FailsOnly (Cause.OfFields k s) (setHeader field name value headers) := by
  unfold setHeader
  split
  · exact .ok _
  · exact Action.invalid_failsOnly h

theorem headersOf_failsOnly {headers : Entries String} (entries : Entries Value) :
    Except.FailsOnly (Cause.OfFields k s) (headersOf headers entries) := by
  induction entries generalizing headers with
  | nil => exact .ok _
  | cons entry rest ih =>
    rw [headersOf]
    split
    · exact .bind (setHeader_failsOnly (by decide)) fun _ _ => ih
    · exact Action.invalid_failsOnly (by decide)

theorem allHeaders_failsOnly : Except.FailsOnly (Cause.OfFields k s) (allHeaders s) := by
  have hj (headers : Entries String) : Except.FailsOnly (Cause.OfFields k s)
      (if (s.entries "cookies").isEmpty then pure headers
        else setHeader "cookies" "cookie" (cookies (s.entries "cookies")) headers) := by
    split
    · exact .pure _
    · exact setHeader_failsOnly (by decide)
  unfold allHeaders
  refine .bind (headersOf_failsOnly _) fun headers _ => ?_
  dsimp only
  split
  · exact .bind (setHeader_failsOnly (by decide)) fun headers _ => hj headers
  · exact .bind (.pure headers) fun headers _ => hj headers

theorem ofStep_failsOnly (h : Action.Kind.httpRequest.Complete s) :
    Except.FailsOnly (Cause.OfFields .httpRequest s) (ofStep s) := by
  have hi {α : Type} {field reason : String} (hf : field ∉ "step" :: childFields) :
      Except.FailsOnly (Cause.OfFields .httpRequest s) (invalid field reason : Except Cause α) :=
    Action.invalid_failsOnly hf
  unfold ofStep
  refine .bind (Action.checkFields_failsOnly h) fun _ _ => ?_
  extract_lets method timeout resultVariable withUrl withMethod
  have hu (url : Url) : Except.FailsOnly (Cause.OfFields .httpRequest s) (withUrl url) := by
    refine .bind allHeaders_failsOnly fun headers _ => ?_
    refine .guard (hi (by decide)) ?_
    exact .guard (hi (by decide)) (.guard (hi (by decide)) (.pure _))
  refine .guard (hi (by decide)) ?_
  dsimp only [withMethod]
  split
  · exact .bind (.pure _) fun url _ => hu url
  · exact .bind (hi (by decide)) fun url _ => hu url

end Http.Request

namespace Action

variable {k : Kind} {s : Step}

/-- A complete step is refused for what its fields hold, or for a setting it lacks. -/
theorem read_failsOnly (h : k.Complete s) :
    Except.FailsOnly (Cause.OfFields k s) (read k s) := by
  unfold read
  split
  · refine .bind (checkFields_failsOnly h) fun _ _ => ?_
    exact .bind (checkName_failsOnly (by decide)) fun _ _ => .pure _
  · exact .bind (checkFields_failsOnly h) fun _ _ => .pure _
  · exact readCommand_failsOnly h
  · exact .bind (checkFields_failsOnly h) fun _ _ => .pure _
  · refine .bind (h.children _ (by decide) (by decide)) fun _ _ => ?_
    exact .bind (h.children _ (by decide) (by decide)) fun _ _ => .pure _
  · refine .bind (h.children _ (by decide) (by decide)) fun _ _ => ?_
    refine .bind (checkFields_failsOnly h) fun _ _ => ?_
    refine .bind loopLimit_failsOnly fun _ _ => ?_
    exact .bind loopMode_failsOnly fun _ _ => .pure _
  · refine .bind (checkFields_failsOnly h) fun _ _ => ?_
    dsimp only
    split
    · exact .bind (seconds_failsOnly _) fun _ _ => .pure _
    · exact .pure _
  · exact readTrigger_failsOnly h
  · exact .map (Http.Request.ofStep_failsOnly h)
  · refine .bind (checkFields_failsOnly h) fun _ _ => ?_
    dsimp only
    split
    · exact .bind (checkName_failsOnly (by decide)) fun _ _ => .pure _
    · exact .pure _

theorem check_failsOnly (h : k.Complete s) :
    Except.FailsOnly (Cause.OfFields k s) (check k s) := by
  unfold check
  split
  · exact .ok _
  · exact .ok _
  · exact .map (read_failsOnly h)

end Action

end Stepwise
