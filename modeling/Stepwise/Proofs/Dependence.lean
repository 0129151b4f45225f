import Mathlib.Data.List.Basic
import Stepwise.Proofs.Failures

/-!
# What an expression depends on

Evaluation looks up the variables of the tree and nothing else in the store. So a store may be
exchanged for another one that has the same values for these variables, and a variable for the
value the store has for it.

* `Expr.filled`: a tree with values in place of variables.
* `Expr.eval_filled`: the filled tree in a store that knows the other variables.
* `Expr.depends_on_names`: evaluating a text.
-/

namespace Stepwise.Expr

/-! ## Values in place of variables -/

section Filled

variable (known : String → Option Value)

mutual

/-- Every variable that is known becomes the literal of its value. -/
def filled : Expr → Expr
  | .var name =>
    match known name with
    | some v => .lit v
    | none => .var name
  | .lit v => .lit v
  | .list items => .list (filledAll items)
  | .neg operand => .neg (filled operand)
  | .not operand => .not (filled operand)
  | .and left right => .and (filled left) (filled right)
  | .or left right => .or (filled left) (filled right)
  | .arith op left right => .arith op (filled left) (filled right)
  | .compare first links => .compare (filled first) (filledLinks links)
  | .index target position => .index (filled target) (filled position)
  | .call function arguments => .call function (filledAll arguments)

/-- Every expression filled. -/
def filledAll : List Expr → List Expr
  | [] => []
  | e :: es => filled e :: filledAll es

/-- The operand of every link filled. -/
def filledLinks : List (Relation × Expr) → List (Relation × Expr)
  | [] => []
  | (relation, e) :: links => (relation, filled e) :: filledLinks links

end

theorem filledAll_eq (es : List Expr) : filledAll known es = es.map (filled known) := by
  induction es with
  | nil => rfl
  | cons e es ih => rw [filledAll, ih, List.map_cons]

theorem map_snd_filledLinks (links : List (Relation × Expr)) :
    (filledLinks known links).map Prod.snd = (links.map Prod.snd).map (filled known) := by
  induction links with
  | nil => rfl
  | cons link links ih => rw [filledLinks, List.map_cons, ih, List.map_cons, List.map_cons]

theorem operands_filled {e : Expr} (h : ∀ name, e ≠ .var name) :
    (e.filled known).operands = e.operands.map (filled known) := by
  cases e with
  | var name => exact absurd rfl (h name)
  | list | call => exact filledAll_eq known _
  | compare first links =>
    exact congrArg (filled known first :: ·) (map_snd_filledLinks known links)
  | _ => rfl

/-- What is left are the variables that are not known. -/
theorem names_filled (e : Expr) :
    (e.filled known).names = e.names.filter fun name => (known name).isNone := by
  induction e using Expr.induct with
  | step e ih =>
    by_cases hvar : ∃ name, e = .var name
    · obtain ⟨name, rfl⟩ := hvar
      rw [filled]
      cases hknown : known name with
      | some v => simp [names_eq, ownNames, operands, hknown]
      | none => simp [names_eq, ownNames, operands, hknown]
    · have hne : ∀ name, e ≠ .var name := fun name h => hvar ⟨name, h⟩
      have hown : e.ownNames = [] ∧ (e.filled known).ownNames = [] := by
        cases e with
        | var name => exact absurd rfl (hne name)
        | _ => exact ⟨rfl, rfl⟩
      rw [names_eq, names_eq e, operands_filled known hne, hown.1, hown.2, List.nil_append,
        List.nil_append, List.flatMap_map, List.filter_flatMap]
      exact List.flatMap_congr ih

end Filled

section

variable {known : String → Option Value} {store other : Store}

theorem evalAll_filledAll (es : List Expr)
    (h : ∀ e ∈ es, eval other (e.filled known) = eval store e) :
    evalAll other (filledAll known es) = evalAll store es := by
  induction es with
  | nil => rw [filledAll, evalAll, evalAll]
  | cons e es ih =>
    obtain ⟨he, hes⟩ := List.forall_mem_cons.mp h
    rw [filledAll, evalAll, evalAll, he, ih hes]

theorem evalLinks_filledLinks (links : List (Relation × Expr))
    (h : ∀ e ∈ links.map Prod.snd, eval other (e.filled known) = eval store e) (left : Value) :
    evalLinks other left (filledLinks known links) = evalLinks store left links := by
  induction links generalizing left with
  | nil => rw [filledLinks, evalLinks, evalLinks]
  | cons link links ih =>
    obtain ⟨he, hes⟩ := List.forall_mem_cons.mp h
    simp only [filledLinks, evalLinks, he, ih hes]

/-- The values of the variables may come from the tree or from the store. -/
theorem eval_filled (e : Expr)
    (h : ∀ name ∈ e.names, (known name).or (other.get? name) = store.get? name) :
    eval other (e.filled known) = eval store e := by
  -- By induction on the tree: the operands have no other variables than the node.
  induction e using Expr.induct with
  | step e ih =>
    have hoperands : ∀ x ∈ e.operands, eval other (x.filled known) = eval store x := fun x hx =>
      ih x hx fun name hname => h name (mem_names.mpr (.inr ⟨x, hx, hname⟩))
    cases e with
    | lit v => rw [filled, eval, eval]
    | var name =>
      -- A known variable has become a literal; any other is looked up in both stores.
      have hname := h name (mem_names.mpr (.inl rfl))
      rw [filled, eval, ← hname]
      cases known name with
      | some v => rw [eval]; rfl
      | none => rw [eval]; rfl
    | list items => rw [filled, eval, eval, evalAll_filledAll items hoperands]
    | neg operand => rw [filled, eval, eval, hoperands operand (by simp [operands])]
    | not operand => rw [filled, eval, eval, hoperands operand (by simp [operands])]
    | and left right | or left right | arith op left right | index left right =>
      rw [filled, eval, eval, hoperands left (by simp [operands]),
        hoperands right (by simp [operands])]
    | compare first links =>
      obtain ⟨hfirst, hlinks⟩ := List.forall_mem_cons.mp hoperands
      simp only [filled, eval, hfirst, evalLinks_filledLinks links hlinks]
    | call function arguments => rw [filled, eval, eval, evalAll_filledAll arguments hoperands]

/-- Only the variables of the tree are looked up. -/
theorem eval_congr {e : Expr} (h : ∀ name ∈ e.names, store.get? name = other.get? name) :
    eval store e = eval other e := by
  let unknown : String → Option Value := fun _ => none
  have hstore : eval other (e.filled unknown) = eval store e :=
    eval_filled e fun name hname => (h name hname).symm
  have hother : eval other (e.filled unknown) = eval other e := eval_filled e fun _ _ => rfl
  exact hstore.symm.trans hother

end

/-! ## Texts -/

theorem undefined_of_evaluate {text : String} {store : Store} {name : String}
    (h : evaluate text store = .error (.undefinedVariable name)) :
    ∃ e, read text = .ok e ∧ name ∈ e.names ∧ store.get? name = none := by
  let Missing (cause : Cause) : Prop := ∀ name, cause = .undefinedVariable name →
    ∃ e, read text = .ok e ∧ name ∈ e.names ∧ store.get? name = none
  have hevaluate : Except.FailsOnly Missing (evaluate text store) := by
    unfold evaluate
    refine .bind (screen_failsOnly (fun reason name h => nomatch h) text) fun _ _ => ?_
    refine .bind (read_failsOnly (fun f name h => nomatch h) text) fun e he => ?_
    refine eval_failsOnly (fun f name h => nomatch h) e fun name hname hnone => ?_
    rintro other ⟨⟩
    exact ⟨e, he, hname, hnone⟩
  exact hevaluate _ h name rfl

/-- The result of a text depends on the variables of its tree alone, whatever else is in the store.
A failure is of one of three categories, and a variable that is undefined is a variable of the tree
that the store does not have. The variables may be exchanged for their values, some or all of
them. -/
theorem depends_on_names (text : String) (store : Store) :
    (∀ other : Store,
      (∀ e, read text = .ok e → ∀ name ∈ e.names, store.get? name = other.get? name) →
      evaluate text store = evaluate text other) ∧
    (∀ cause, evaluate text store = .error cause →
      cause.category.text ∈ ["unsafe_expression", "expression", "undefined_variable"] ∧
      ∀ name, cause = .undefinedVariable name →
        ∃ e, read text = .ok e ∧ name ∈ e.names ∧ store.get? name = none) ∧
    ∀ (e : Expr) (known : String → Option Value),
      (∀ name v, known name = some v → store.get? name = some v) →
      (∀ name ∈ (e.filled known).names, known name = none) ∧
      eval store (e.filled known) = eval store e := by
  refine ⟨fun other h => ?_, fun cause h => ⟨?_, ?_⟩, fun e known h => ⟨?_, ?_⟩⟩
  · unfold evaluate
    cases hread : read text with
    | ok e =>
      congr 1
      funext _
      exact eval_congr (h e hread)
    | error c => rfl
  · have hcause := evaluate_failsOnly text store cause h
    cases cause with
    | unsafeExpression | expression | undefinedVariable =>
      dsimp only [Cause.category]
      decide
    | _ => exact hcause.elim
  · rintro name rfl
    exact undefined_of_evaluate h
  · intro name hname
    rw [names_filled, List.mem_filter] at hname
    exact Option.isNone_iff_eq_none.mp hname.2
  · refine eval_filled e fun name _ => ?_
    cases hknown : known name with
    | some v => exact (h name v hknown).symm
    | none => rfl

/-- A variable is missing behind a condition that holds, and another one, which is not in the text,
does not matter. -/
theorem depends_on_names_missing :
    let text := "n>0 and absent+n"
    let e : Expr := .and (.compare (.var "n") [(.gt, .lit (.int 0))])
      (.arith .add (.var "absent") (.var "n"))
    let store : Store := [("n", .int 2)]
    let other : Store := [("hidden", .str "s"), ("n", .int 2)]
    read text = .ok e ∧ e.names = ["n", "absent", "n"] ∧
      evaluate text store = .error (.undefinedVariable "absent") ∧
      evaluate text store = evaluate text other ∧
      (∃ e, read text = .ok e ∧ "absent" ∈ e.names ∧ store.get? "absent" = none) ∧
      (e.filled store.get?).names = ["absent"] ∧
      eval store (e.filled store.get?) = eval store e := by
  intro text e store other
  have htokens : tokenize text = .ok [.name "n", .mark .greater, .int 0, .name "and",
      .name "absent", .mark .plus, .name "n"] := by decide +kernel
  have hread : read text = .ok e := by
    rw [read, parse, htokens]
    rfl
  have hscreen : Screen.expression text = .ok () := by decide +kernel
  have hevaluate : evaluate text store = .error (.undefinedVariable "absent") := by
    rw [evaluate_of_read hscreen hread]
    rfl
  obtain ⟨hagree, hcause, hfilled⟩ := depends_on_names text store
  refine ⟨hread, rfl, hevaluate, hagree other fun e' he' name hname => ?_,
    (hcause _ hevaluate).2 "absent" rfl, rfl, (hfilled e store.get? fun _ _ h => h).2⟩
  obtain rfl : e = e' := Except.ok.inj (hread.symm.trans he')
  have hnames : name ∈ ["n", "absent", "n"] := hname
  simp only [List.mem_cons, List.not_mem_nil, or_false] at hnames
  rcases hnames with rfl | rfl | rfl
  · rfl
  · rfl
  · rfl

end Stepwise.Expr
