import Mathlib.Data.List.Find
import Stepwise.Proofs.Matching
import Stepwise.Proofs.StepTree

/-!
# Undeclared fields

A step may hold fields that its action does not declare. They are neither filled nor handed over,
so it makes no difference whether they are there: a script does the same when they are removed from
all its steps, and from the steps that conditions and loops run.

* `Step.pruned`, `Script.pruned`: without the fields that are not declared.
* `Action.read_trimmedStep`: an action asks for the same, whatever stands in its lists of steps.
* `Engine.execute_pruned`: the law for steps and scripts.
-/

namespace Stepwise

variable {τ : Type}

/-! ## Pruned steps -/

/-- The fields with the lists of steps that an action runs. -/
def Action.Kind.branches : Kind → List String
  | condition => ["if_true", "if_false"]
  | loop => ["loop_steps"]
  | _ => []

namespace Descriptor

/-- The action runs the steps in the field. -/
def runs (d : Descriptor) (field : String) : Bool :=
  match d.handler with
  | .builtin k => k.branches.contains field
  | .recorder => false

/-- The field names the action, or the action reads it. -/
def keeps (d? : Option Descriptor) (field : String) : Bool :=
  field = "action" || d?.any (·.declares field)

end Descriptor

/-- The action a step names, if it is registered. -/
def Registry.actionOf? (r : Registry) (s : Step) : Option Descriptor := s.action?.bind r.find?

mutual

/-- A step, given as data, without the fields that its action does not declare. So are the steps in
the lists that its action runs. -/
def prunedValue (r : Registry) : Value → Value
  | .dict fields => .dict (prunedFields r (r.actionOf? ⟨fields⟩) fields)
  | v => v
termination_by structural v => v

/-- The fields of a step with this action. -/
def prunedFields (r : Registry) (d? : Option Descriptor) :
    List (String × Value) → List (String × Value)
  | [] => []
  | (field, v) :: rest =>
    if Descriptor.keeps d? field then
      (field, if d?.any (·.runs field) then prunedList r v else v) :: prunedFields r d? rest
    else prunedFields r d? rest
termination_by structural fields => fields

/-- A list of steps. What is no list is left as it is. -/
def prunedList (r : Registry) : Value → Value
  | .list items => .list (prunedItems r items)
  | v => v
termination_by structural v => v

/-- The steps in a list. -/
def prunedItems (r : Registry) : List Value → List Value
  | [] => []
  | v :: vs => prunedValue r v :: prunedItems r vs
termination_by structural items => items

end

/-- A step without the fields that are not declared. -/
def Step.pruned (r : Registry) (s : Step) : Step :=
  ⟨prunedFields r (r.actionOf? s) s.fields⟩

/-- A script without the fields that are not declared. -/
def Script.pruned (r : Registry) : Script → Script
  | steps ss => steps (ss.map (·.pruned r))
  | snippet source => snippet source

/-! ## The fields of a pruned step -/

/-- Entries in which the lists of steps that are run are pruned. -/
def trimmed (r : Registry) (runs : String → Bool) (entries : Entries Value) : Entries Value :=
  entries.map fun entry => (entry.1, if runs entry.1 then prunedList r entry.2 else entry.2)

section Fields

variable {r : Registry} {runs : String → Bool} {field : String}

theorem get?_trimmed (entries : Entries Value) (field : String) :
    (trimmed r runs entries).get? field =
      (entries.get? field).map fun v => if runs field then prunedList r v else v := by
  induction entries with
  | nil => rfl
  | cons entry rest ih =>
    show Entries.get? (_ :: trimmed r runs rest) field = _
    rw [Entries.get?, Entries.get?, ih]
    split
    · next h =>
      rw [h]
      rfl
    · rfl

theorem get?_trimmed_of_not_runs (entries : Entries Value) (h : runs field = false) :
    (trimmed r runs entries).get? field = entries.get? field := by
  rw [get?_trimmed, h]
  exact Option.map_id'

theorem trimmed_eq_self (entries : Entries Value) (h : ∀ field, runs field = false) :
    trimmed r runs entries = entries := by
  refine (List.map_congr_left fun entry _ => ?_).trans (List.map_id entries)
  rw [h]
  rfl

/-- The fields that stay, and what stays of their lists. -/
theorem prunedFields_eq (d? : Option Descriptor) (entries : Entries Value) :
    prunedFields r d? entries =
      trimmed r (fun field => d?.any (·.runs field))
        (entries.filter fun entry => Descriptor.keeps d? entry.1) := by
  induction entries with
  | nil =>
    rw [prunedFields]
    rfl
  | cons entry rest ih =>
    rw [prunedFields, List.filter_cons, ih]
    split
    · rfl
    · rfl

/-- A field that stays is found, with what stays of its list. -/
theorem get?_prunedFields {d? : Option Descriptor} (entries : Entries Value)
    (h : Descriptor.keeps d? field = true) :
    Entries.get? (prunedFields r d? entries) field =
      (entries.get? field).map fun v =>
        if d?.any (·.runs field) then prunedList r v else v := by
  rw [prunedFields_eq, get?_trimmed]
  refine congrArg _ ?_
  induction entries with
  | nil => rfl
  | cons entry rest ih =>
    rw [List.filter_cons]
    by_cases hname : entry.1 = field
    · rw [if_pos (hname ▸ h), Entries.get?, Entries.get?, if_pos hname, if_pos hname]
    · split
      · rw [Entries.get?, Entries.get?, if_neg hname, if_neg hname, ih]
      · rw [ih, Entries.get?, if_neg hname]

end Fields

/-! ## What an action reads -/

namespace Action

variable {r : Registry} {k : Kind} {s : Step} {field : String}

/-- The step as its action sees it, with pruned lists of steps. -/
def trimmedStep (r : Registry) (k : Kind) (s : Step) : Step :=
  ⟨trimmed r k.branches.contains s.fields⟩

theorem get?_trimmedStep (h : field ∉ k.branches) :
    (trimmedStep r k s).get? field = s.get? field :=
  get?_trimmed_of_not_runs _ (by simpa using h)

theorem number?_trimmedStep (h : field ∉ k.branches) :
    (trimmedStep r k s).number? field = s.number? field := by
  have hgiven : (trimmedStep r k s).given? field = s.given? field := by
    unfold Step.given? Value.given?
    rw [show (trimmedStep r k s).fields.get? field = s.fields.get? field from
      get?_trimmedStep h]
  exact congrArg (·.bind Value.number?) hgiven

theorem ofItems_pruned (r : Registry) (index : Nat) (items : List Value) :
    Step.ofItems index (prunedItems r items) =
      (Step.ofItems index items).map fun ts => ts.map (·.pruned r) := by
  induction items generalizing index with
  | nil => rfl
  | cons v vs ih =>
    cases v with
    | dict fields =>
      show (Step.ofItems (index + 1) (prunedItems r vs)).map _ = ((Step.ofItems _ vs).map _).map _
      rw [ih]
      cases Step.ofItems (index + 1) vs with
      | ok ts => rfl
      | error i => rfl
    | null | bool | int | float | str | list => rfl

/-- The steps in a list are pruned, and what is no step stays where it is. -/
theorem children?_trimmedStep (h : field ∈ k.branches) :
    (trimmedStep r k s).children? field =
      (s.children? field).map (Except.map fun ts => ts.map (·.pruned r)) := by
  have hget : (trimmedStep r k s).get? field = (s.get? field).map (prunedList r) := by
    rw [Step.get?, trimmedStep, get?_trimmed, List.contains_iff_mem.mpr h]
    rfl
  unfold Step.children?
  rw [hget]
  cases s.get? field with
  | none => rfl
  | some v =>
    cases v with
    | list items => exact congrArg some (ofItems_pruned r 0 items)
    | null | bool | int | float | str | dict => rfl

/-- A pruned list of steps is refused for what the list is refused for. -/
theorem children_bind_trimmedStep {α : Type} (action : String) (h : field ∈ k.branches)
    (x : Except Cause α) :
    ((trimmedStep r k s).children field action >>= fun _ => x) =
      s.children field action >>= fun _ => x := by
  unfold Step.children
  rw [children?_trimmedStep h]
  cases s.children? field with
  | none => rfl
  | some ts =>
    cases ts with
    | ok ts => rfl
    | error index => rfl

theorem refusal?_prunedList {f : Field} (h : f.shape = .list) (v : Value) :
    f.refusal? (prunedList r v) = f.refusal? v := by
  cases v with
  | list items =>
    show f.refusal? (.list (prunedItems r items)) = _
    unfold Field.refusal?
    rw [h]
  | null | bool | int | float | str | dict => rfl

/-- A step is refused for the same field. -/
theorem fieldsRefusal?_trimmedStep {fields : List Field}
    (h : ∀ f ∈ fields, f.name ∈ k.branches → f.shape = .list) :
    fieldsRefusal? fields (trimmedStep r k s) = fieldsRefusal? fields s := by
  unfold fieldsRefusal?
  have hcontains (name : String) : (trimmedStep r k s).contains name = s.contains name := by
    show ((trimmed r _ s.fields).get? name).isSome = _
    rw [get?_trimmed]
    exact Option.isSome_map
  -- A list of steps has the right shape, whether or not its steps have undeclared fields.
  have hwrong (entry : String × Value) :
      ((fields.find? (·.name == entry.1)).bind fun f =>
        f.refusal? (if k.branches.contains entry.1 then prunedList r entry.2 else entry.2)) =
      (fields.find? (·.name == entry.1)).bind fun f => f.refusal? entry.2 := by
    cases hf : fields.find? (·.name == entry.1) with
    | none => rfl
    | some f =>
      have hname : f.name = entry.1 := by simpa using List.find?_some hf
      show f.refusal? _ = f.refusal? _
      split
      · next hbranch =>
        refine refusal?_prunedList (h f (List.mem_of_find?_eq_some hf) ?_) entry.2
        rw [hname]
        exact List.contains_iff_mem.mp hbranch
      · rfl
  simp only [hcontains]
  simp only [trimmedStep, trimmed, List.findSome?_map, Function.comp_def, hwrong]

/-- An action asks for the same, whatever stands in its lists of steps. -/
theorem read_trimmedStep (r : Registry) (k : Kind) (s : Step) :
    read k (trimmedStep r k s) = read k s := by
  -- Only conditions and loops have branches; what other actions hold is left alone.
  have hleaf (h : k.branches = []) : trimmedStep r k s = s := by
    rw [trimmedStep, trimmed_eq_self _ fun field => by rw [h]; rfl]
  cases k with
  | condition =>
    unfold read
    dsimp only
    rw [children_bind_trimmedStep _ (by decide), children_bind_trimmedStep _ (by decide),
      get?_trimmedStep (by decide)]
  | loop =>
    have hcheck : checkFields Kind.loop.fields Kind.loop.name (trimmedStep r .loop s) =
        checkFields Kind.loop.fields Kind.loop.name s := by
      unfold checkFields
      rw [fieldsRefusal?_trimmedStep (by decide)]
    have hlimit : loopLimit (trimmedStep r .loop s) = loopLimit s := by
      unfold loopLimit
      rw [number?_trimmedStep (by decide)]
    have hmode : loopMode (trimmedStep r .loop s) = loopMode s := by
      unfold loopMode
      rw [number?_trimmedStep (by decide), get?_trimmedStep (by decide)]
    unfold read
    dsimp only
    rw [children_bind_trimmedStep _ (by decide), hcheck, hlimit, hmode]
  | setVar | printMsg | executeCommand | eval | delay | trigger | httpRequest | combineData =>
    rw [hleaf rfl]

end Action

/-! ## Preparation -/

namespace Engine

variable {e : Engine} {d : Descriptor} {s s' : Step} {field : String}

/-- The action sees the same in both steps. -/
def SeenAlike (d : Descriptor) (s s' : Step) : Prop :=
  match d.handler with
  | .builtin k => Action.read k s = Action.read k s'
  | .recorder => s = s'

theorem SeenAlike.check (h : SeenAlike d s s') : d.handler.check s = d.handler.check s' := by
  unfold SeenAlike at h
  unfold Handler.check
  split
  · rename_i k hk
    rw [hk] at h
    have hread : Action.read k s = Action.read k s' := h
    cases k with
    | printMsg | eval => rfl
    | _ => exact congrArg (Except.map fun _ => ()) hread
  · rfl

theorem action?_pruned (r : Registry) (s : Step) : (s.pruned r).action? = s.action? := by
  unfold Step.action? Step.get? Step.pruned
  rw [get?_prunedFields _ (show Descriptor.keeps _ "action" = true from rfl)]
  cases s.fields.get? "action" with
  | none => rfl
  | some v =>
    rw [Option.map_some]
    cases (r.actionOf? s).any (·.runs "action") with
    | true => cases v <;> rfl
    | false => rfl

theorem actionOf?_eq_some (h : e.actionOf s = .ok d) :
    d ∈ e.registry.actions ∧ e.registry.actionOf? s = some d := by
  obtain ⟨name, hname, hfind, -⟩ := actionOf_eq_ok.mp h
  refine ⟨List.mem_of_find?_eq_some hfind, ?_⟩
  rw [Registry.actionOf?, hname]
  exact hfind

/-- A pruned step has the action it had, and lacks no field that it did not lack. -/
theorem actionOf_pruned (e : Engine) (s : Step) :
    e.actionOf (s.pruned e.registry) = e.actionOf s := by
  unfold actionOf
  rw [action?_pruned]
  cases hname : s.action? with
  | none => rfl
  | some name =>
    dsimp only
    unfold Registry.lookup
    cases hd : e.registry.find? name with
    | none => rfl
    | some d =>
      have hd? : e.registry.actionOf? s = some d := by
        rw [Registry.actionOf?, hname]
        exact hd
      -- A required field is declared, so it is kept.
      have hmissing : d.missing? (s.pruned e.registry) = d.missing? s := by
        refine List.find?_congr fun field hfield => congrArg _ ?_
        have hkeeps : Descriptor.keeps (some d) field = true := by
          simp [Descriptor.keeps, declares_of_required hfield]
        show (Entries.get? (prunedFields _ (e.registry.actionOf? s) s.fields) field).isSome = _
        rw [hd?, get?_prunedFields _ hkeeps]
        exact Option.isSome_map
      show (pure d >>= _) = (pure d >>= _)
      rw [pure_bind, pure_bind, hmissing]

section Preparation

variable (he : e.registry.Genuine)
include he

/-- An action that runs the steps in a field reads the field as it was written. -/
theorem raw_of_runs (hd : d ∈ e.registry.actions) (h : d.runs field = true) :
    field ≠ "action" ∧ d.declares field = true ∧ d.raw.contains field = true := by
  unfold Descriptor.runs at h
  split at h
  · rename_i k hk
    obtain rfl := he d hd k hk
    have hraw : ∀ k : Action.Kind, ∀ field ∈ k.branches, field ∈ k.raw := by
      intro k
      cases k <;> decide
    have hmem := hraw k field (List.contains_iff_mem.mp h)
    obtain ⟨ha, hdecl⟩ := k.declares_of_raw field hmem
    exact ⟨ha, hdecl, List.contains_iff_mem.mpr hmem⟩
  · cases h

theorem filled_pruned (hd : d ∈ e.registry.actions) (store : Store) (field : String) (v : Value) :
    e.filled d store field (if d.runs field then prunedList e.registry v else v) =
      (e.filled d store field v).map fun v =>
        if d.runs field then prunedList e.registry v else v := by
  split
  · next hruns =>
    obtain ⟨-, -, hraw⟩ := raw_of_runs he hd hruns
    rw [filled, filled, if_pos hraw, if_pos hraw]
    rfl
  · cases e.filled d store field v with
    | ok w => rfl
    | error c => rfl

/-- The fields that are read of a pruned step are those that are read of the step, with pruned
lists. -/
theorem fieldsRead_pruned (hd : d ∈ e.registry.actions) (store : Store)
    (fields : Entries Value) :
    e.fieldsRead d store (prunedFields e.registry (some d) fields) =
      (e.fieldsRead d store fields).map (trimmed e.registry d.runs) := by
  induction fields with
  | nil => rfl
  | cons entry rest ih =>
    obtain ⟨field, v⟩ := entry
    rw [prunedFields]
    by_cases hdecl : d.declares field = true
    · rw [if_pos (show Descriptor.keeps (some d) field = true by simp [Descriptor.keeps, hdecl]),
        fieldsRead, fieldsRead, if_pos hdecl, if_pos hdecl, ih]
      rw [show (some d).any (·.runs field) = d.runs field from rfl, filled_pruned he hd]
      cases e.filled d store field v with
      | error c => rfl
      | ok w =>
        cases e.fieldsRead d store rest with
        | error c => rfl
        | ok out => rfl
    · rw [fieldsRead, if_neg hdecl, ← ih]
      split
      · rw [fieldsRead, if_neg hdecl]
      · rfl

/-- What is handed over of a pruned step is what is handed over of the step, with pruned lists. -/
theorem handedOver_trimmed (hd : d ∈ e.registry.actions) (name : String)
    (fields : Entries Value) :
    handedOver name (trimmed e.registry d.runs fields) =
      ⟨trimmed e.registry d.runs (handedOver name fields).fields⟩ := by
  have haction : d.runs "action" = false :=
    Bool.eq_false_iff.mpr fun h => (raw_of_runs he hd h).1 rfl
  refine congrArg Step.mk ?_
  rw [get?_trimmed_of_not_runs _ haction]
  show _ = (_, if d.runs "action" then _ else _) :: trimmed e.registry d.runs _
  rw [haction]
  refine congrArg (List.cons _) ?_
  exact List.filter_map

theorem seenAlike_trimmed (hd : d ∈ e.registry.actions) (s : Step) :
    SeenAlike d ⟨trimmed e.registry d.runs s.fields⟩ s := by
  unfold SeenAlike
  split
  · rename_i k hk
    obtain rfl := he d hd k hk
    exact Action.read_trimmedStep e.registry k s
  · rename_i hk
    rw [trimmed_eq_self]
    intro field
    rw [Descriptor.runs, hk]

/-- The action sees the same in a pruned step. -/
theorem ready_pruned (hd : e.actionOf s = .ok d) (store : Store) :
    Attempt.Agree (SeenAlike d) (e.ready d store (s.pruned e.registry)) (e.ready d store s) := by
  obtain ⟨hmem, hd?⟩ := actionOf?_eq_some hd
  unfold ready
  rw [action?_pruned, Step.pruned, hd?, fieldsRead_pruned he hmem]
  cases e.fieldsRead d store s.fields with
  | error c => exact .error c
  | ok fields =>
    have hseen := seenAlike_trimmed he hmem (handedOver (s.action?.getD "") fields)
    rw [← handedOver_trimmed he hmem] at hseen
    show Attempt.Agree _ (d.handler.check _ >>= fun _ => _) (d.handler.check _ >>= fun _ => _)
    rw [hseen.check]
    cases d.handler.check (handedOver (s.action?.getD "") fields) with
    | error c => exact .error c
    | ok u => exact .ok hseen

theorem prepare_pruned (s : Step) :
    Attempt.Matches (fun p q => p.1 = q.1 ∧ e.actionOf s = .ok q.1 ∧ SeenAlike q.1 p.2 q.2)
      (e.prepare (s.pruned e.registry)) (e.prepare s) := by
  unfold prepare
  refine .bind (.poll _ _) fun b b' hb => ?_
  subst hb
  cases b with
  | true => exact .throw_bind .cancelled
  | false =>
    rw [actionOf_pruned]
    cases hd : e.actionOf s with
    | error c => exact .throw_bind c
    | ok d =>
      refine .refl_bind (Attempt.access .read) fun store => ?_
      refine .bind (.settled (ready_pruned he hd store)) fun s₁ s₂ hs => ?_
      exact .settled (.ok ⟨rfl, rfl, hs⟩)

end Preparation

/-! ## Actions -/

variable {lists lists' : String → Process (Except Outcome Nat)}

/-- A loop makes the same passes, if its body does the same. -/
theorem passes_matches (mode : LoopMode) (limit : Nat) {body body' : Process (Except Outcome Nat)}
    (h : body.Matches Eq body') (done left : Nat) :
    Attempt.Matches Eq (e.passes mode limit body done left)
      (e.passes mode limit body' done left) := by
  induction left generalizing done with
  | zero =>
    rw [passes_zero, passes_zero]
    exact .refl (fun _ => rfl) _
  | succ left ih =>
    rw [passes_succ, passes_succ]
    refine .refl_bind _ fun b => ?_
    cases b with
    | true =>
      refine .refl_bind _ fun _ => .bind (.lift h) fun result _ hresult => ?_
      subst hresult
      cases result with
      | ok n => exact ih (done + 1)
      | error o => exact .refl (fun _ => rfl) _
    | false => exact .refl (fun _ => rfl) _

/-- An action does the same, if the lists of steps that it runs do. -/
theorem carryOut_matches {a : Action}
    (h : ∀ field ∈ a.kind.branches, (lists field).Matches Eq (lists' field)) :
    Attempt.Matches Eq (e.carryOut lists a) (e.carryOut lists' a) := by
  cases a with
  | choose condition =>
    cases condition with
    | none => exact .refl (fun _ => rfl) _
    | some v =>
      refine .refl_bind _ fun store => .refl_bind _ fun holds => ?_
      have hlist : (lists (if holds then "if_true" else "if_false")).Matches Eq
          (lists' (if holds then "if_true" else "if_false")) :=
        h _ (show _ ∈ Action.Kind.condition.branches by cases holds <;> decide)
      refine .bind (.lift hlist) fun result _ hresult => ?_
      subst hresult
      exact .refl (fun _ => rfl) _
  | iterate mode limit =>
    have hbody := h "loop_steps" (show _ ∈ Action.Kind.loop.branches by decide)
    refine .bind (passes_matches mode _ hbody 0 _) fun result _ hresult => ?_
    subst hresult
    exact .refl (fun _ => rfl) _
  | assign | print | command | evaluate | pause | record | request | merge =>
    exact .refl (fun _ => rfl) _

theorem handle_matches (hs : SeenAlike d s s')
    (h : ∀ field, d.runs field = true → (lists field).Matches Eq (lists' field)) :
    Attempt.Matches Eq (e.handle lists d s) (e.handle lists' d s') := by
  unfold SeenAlike at hs
  unfold handle
  split
  · rename_i hk
    rw [hk] at hs
    obtain rfl : s = s' := hs
    exact .refl (fun _ => rfl) _
  · rename_i k hk
    rw [hk] at hs
    rw [show Action.read k s = Action.read k s' from hs]
    cases hread : Action.read k s' with
    | error c => exact .throw_bind c
    | ok a =>
      refine carryOut_matches fun field hfield => h field ?_
      rw [Action.read_kind k s' a hread] at hfield
      rw [Descriptor.runs, hk]
      exact List.contains_iff_mem.mpr hfield

/-! ## Steps -/

section Dispatch

variable (he : e.registry.Genuine)
include he

/-- A pruned step does the same, if the lists of steps that its action runs do. -/
theorem dispatchWith_pruned (s : Step)
    (h : ∀ d field, e.registry.actionOf? s = some d → d.runs field = true →
      (lists field).Matches Eq (lists' field)) :
    (e.dispatchWith lists (s.pruned e.registry)).Matches Eq (e.dispatchWith lists' s) := by
  unfold dispatchWith
  refine .bind (prepare_pruned he s) fun p q hpq => ?_
  cases hpq with
  | error c =>
    rw [action?_pruned]
    exact .done rfl
  | @ok p q hpq =>
    obtain ⟨d, s₁⟩ := p
    obtain ⟨d', s₂⟩ := q
    obtain ⟨hd, haction, hs⟩ := hpq
    dsimp only at hd haction hs
    subst hd
    obtain ⟨-, hd?⟩ := actionOf?_eq_some haction
    refine .bind (handle_matches hs fun field => h d field hd?) fun result _ hresult => ?_
    cases hresult with
    | ok ho =>
      subst ho
      exact .refl (fun _ => rfl) _
    | error c => exact .refl (fun _ => rfl) _

omit he

mutual

theorem dispatchValue_pruned (he : e.registry.Genuine) : ∀ v : Value,
    (e.dispatchValue (prunedValue e.registry v)).Matches Eq (e.dispatchValue v)
  | .dict fields => by
    rw [prunedValue, dispatchValue, dispatchValue]
    refine dispatchWith_pruned he ⟨fields⟩ fun d field hd hruns => ?_
    rw [hd]
    obtain ⟨_, -, hfind⟩ := Option.bind_eq_some_iff.mp hd
    exact runField_pruned he fields d field (List.mem_of_find?_eq_some hfind) hruns
  | .null | .bool _ | .int _ | .float _ | .str _ | .list _ => .refl (fun _ => rfl) _
termination_by structural v => v

theorem runField_pruned (he : e.registry.Genuine) : ∀ (fields : List (String × Value))
    (d : Descriptor) (field : String), d ∈ e.registry.actions → d.runs field = true →
      (e.runField (prunedFields e.registry (some d) fields) field).Matches Eq
        (e.runField fields field)
  | [], _, _, _, _ => .refl (fun _ => rfl) _
  | (name, v) :: rest, d, field, hd, hruns => by
    obtain ⟨-, hdecl, -⟩ := raw_of_runs he hd hruns
    rw [prunedFields, runField]
    by_cases hname : name = field
    · subst hname
      have hkeeps : Descriptor.keeps (some d) name = true := by simp [Descriptor.keeps, hdecl]
      rw [if_pos hkeeps, runField, if_pos rfl, if_pos rfl,
        if_pos (show (some d).any (·.runs name) = true from hruns)]
      exact runList_pruned he v
    · rw [if_neg hname]
      split
      · rw [runField, if_neg hname]
        exact runField_pruned he rest d field hd hruns
      · exact runField_pruned he rest d field hd hruns
termination_by structural fields => fields

theorem runList_pruned (he : e.registry.Genuine) : ∀ v : Value,
    (e.runList (prunedList e.registry v)).Matches Eq (e.runList v)
  | .list items => runItems_pruned he items 0
  | .null | .bool _ | .int _ | .float _ | .str _ | .dict _ => .refl (fun _ => rfl) _
termination_by structural v => v

theorem runItems_pruned (he : e.registry.Genuine) : ∀ (items : List Value) (count : Nat),
    (e.runItems count (prunedItems e.registry items)).Matches Eq (e.runItems count items)
  | [], _ => .refl (fun _ => rfl) _
  | v :: vs, count => by
    rw [prunedItems, runItems, runItems]
    refine .bind (dispatchValue_pruned he v) fun o _ ho => ?_
    subst ho
    split
    · exact .refl (fun _ => rfl) _
    · exact runItems_pruned he vs (count + 1)
termination_by structural items => items

end

include he

theorem dispatch_pruned (s : Step) :
    (e.dispatch (s.pruned e.registry)).Matches Eq (e.dispatch s) :=
  dispatchValue_pruned he s.toValue

theorem stepsFrom_pruned (ss : List Step) (index : Nat) :
    (e.stepsFrom index (ss.map (·.pruned e.registry))).Matches Eq (e.stepsFrom index ss) := by
  induction ss generalizing index with
  | nil => exact .refl (fun _ => rfl) _
  | cons s ss ih =>
    rw [List.map_cons, stepsFrom, stepsFrom]
    refine .refl_bind _ fun _ => .bind (dispatch_pruned he s) fun o _ ho => ?_
    subst ho
    split
    · exact .refl (fun _ => rfl) _
    · exact ih (index + 1)

/-- Fields that are not declared make no difference. Whatever is done to a run by a step or by a
script is done without them, in every world and under both policies for undefined variables. -/
theorem execute_pruned (world : World τ) (r : Run) (t : τ) :
    (∀ s : Step, (e.dispatch (s.pruned e.registry)).run world r t = (e.dispatch s).run world r t) ∧
      ∀ (run : String) (script : Script),
        (e.execute run (script.pruned e.registry)).run world r t =
          (e.execute run script).run world r t := by
  refine ⟨fun s => (dispatch_pruned he s).run_eq world r t, fun run script => ?_⟩
  have hbody : (e.body (script.pruned e.registry)).Matches Eq (e.body script) := by
    cases script with
    | steps ss => exact stepsFrom_pruned he ss 0
    | snippet source => exact .refl (fun _ => rfl) _
  refine Process.Matches.run_eq (.refl_bind _ fun launched => ?_) world r t
  split
  · exact .refl (fun _ => rfl) _
  · refine .refl_bind _ fun _ => .refl_bind _ fun _ => .bind hbody fun result _ hresult => ?_
    subst hresult
    exact .refl (fun _ => rfl) _

omit he

/-- A step in a branch, and the step around it, with fields that name no variable there is, under
the policy that refuses such names. -/
theorem execute_pruned_nested :
    let noted : Step := ⟨[("note", .str "$\x7bnowhere\x7d"), ("action", .str "print_msg"),
      ("message", .int 1), ("if_true", .null)]⟩
    let around (inner : Step) (more : Entries Value) : Step :=
      ⟨[("action", .str "condition"), ("condition", .bool true),
        ("if_true", .list [inner.toValue]), ("if_false", .list [])] ++ more⟩
    let plain := Script.steps [around ⟨[("action", .str "print_msg"), ("message", .int 1)]⟩ []]
    let script := Script.steps [around noted [("steps", .list [.str "$\x7bnowhere\x7d"])]]
    let e : Engine := { config := { undefinedVariables := .error } }
    let r := Run.create "pruned" {} e.config
    let world := World.answering Wait.quiet
    e.registry.Genuine ∧ script.pruned e.registry = plain ∧
      (e.execute "pruned" plain).run world r () = (e.execute "pruned" script).run world r () ∧
      ((e.execute "pruned" script).run world r ()).2.1.output.lines = ["1"] := by
  intro noted around plain script e r world
  obtain ⟨-, hscript⟩ := execute_pruned (e := e) Registry.genuine_builtins world r ()
  exact ⟨Registry.genuine_builtins, rfl, hscript "pruned" script, by decide +kernel⟩

end Dispatch

end Engine

end Stepwise
