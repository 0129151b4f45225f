import Stepwise.Expr.Eval
import Stepwise.Proofs.Except

/-!
# Comparison chains

A chain `a < b <= c` asks for `a < b and b <= c`. It is one node, so that an operand between two
relations is evaluated once; the conjunction is many nodes, which evaluate it twice and go through
the rule by which `and` gives the operand that decided. Both evaluate links in turn until one does
not hold.

* `Expr.evalInTurn`: expressions evaluated in turn as long as they hold.
* `Expr.eval_compare`: a chain is its links in turn.
* `Expr.eval_of_conjoins`: so is every conjunction of truth values.
* `Expr.chain_is_conjunction`: the chain and the conjunction.
-/

namespace Stepwise.Expr

/-- The links of a chain, each as a comparison of its own. -/
def comparisons (left : Expr) : List (Relation × Expr) → List Expr
  | [] => []
  | (relation, right) :: links => .compare left [(relation, right)] :: comparisons right links

/-- The comparisons of a longer chain begin with those of the chain. -/
theorem comparisons_append (first : Expr) (links more : List (Relation × Expr)) :
    ∃ rest, comparisons first (links ++ more) = comparisons first links ++ rest := by
  induction links generalizing first with
  | nil => exact ⟨comparisons first more, rfl⟩
  | cons link links ih =>
    obtain ⟨rest, hrest⟩ := ih link.2
    refine ⟨rest, ?_⟩
    rw [List.cons_append, comparisons, hrest]
    rfl

/-- The expression joins the expressions of the list by `and`, in their order and grouped in any
way. -/
inductive Conjoins : List Expr → Expr → Prop
  | one (e : Expr) : Conjoins [e] e
  | and {xs ys : List Expr} {x y : Expr} :
    Conjoins xs x → Conjoins ys y → Conjoins (xs ++ ys) (.and x y)

/-- The grouping from the left, which is the one of a text. -/
theorem conjoins_foldl {xs : List Expr} {x : Expr} (h : Conjoins xs x) (es : List Expr) :
    Conjoins (xs ++ es) (es.foldl .and x) := by
  induction es generalizing xs x with
  | nil => rwa [List.append_nil]
  | cons e es ih =>
    have hnext := ih (.and h (.one e))
    rwa [List.append_assoc] at hnext

section

variable (store : Store)

/-- Evaluates expressions in turn as long as they hold. The value is the one that does not hold,
or true. -/
def evalInTurn : List Expr → Except Cause Value
  | [] => .ok (.bool true)
  | e :: es => do
    let v ← eval store e
    if v.truthy then evalInTurn es else return v

/-- A value, if there is one, is true or false. -/
def BoolValued (e : Expr) : Prop := Except.GivesOnly (fun v => ∃ b, v = .bool b) (eval store e)

variable {store}

theorem evalInTurn_append (xs ys : List Expr) :
    evalInTurn store (xs ++ ys) = do
      let v ← evalInTurn store xs
      if v.truthy then evalInTurn store ys else return v := by
  induction xs with
  | nil => rfl
  | cons x xs ih =>
    rw [List.cons_append, evalInTurn, evalInTurn, ih, bind_assoc]
    congr 1
    funext v
    split
    · rfl
    · next hv => rw [pure_bind, if_neg hv]

/-- A truth value that does not hold decides, and so does a failure. -/
theorem evalInTurn_append_of_ne {xs : List Expr}
    (hbool : Except.GivesOnly (fun v => ∃ b, v = .bool b) (evalInTurn store xs))
    (h : evalInTurn store xs ≠ .ok (.bool true)) (ys : List Expr) :
    evalInTurn store (xs ++ ys) = evalInTurn store xs := by
  rw [evalInTurn_append]
  cases hxs : evalInTurn store xs with
  | error c => rfl
  | ok v =>
    obtain ⟨b, rfl⟩ := hbool v hxs
    cases b with
    | false => rfl
    | true => exact absurd hxs h

/-- One truth value in turn is itself. -/
theorem evalInTurn_singleton {e : Expr} (h : BoolValued store e) :
    evalInTurn store [e] = eval store e := by
  rw [evalInTurn]
  cases he : eval store e with
  | error c => rfl
  | ok v =>
    obtain ⟨b, rfl⟩ := h v he
    cases b with
    | true => rfl
    | false => rfl

/-- `and` asks for its operands in turn, however they are grouped. -/
theorem eval_of_conjoins {es : List Expr} {e : Expr} (h : Conjoins es e)
    (hbool : ∀ x ∈ es, BoolValued store x) : eval store e = evalInTurn store es := by
  induction h with
  | one e => exact (evalInTurn_singleton (hbool e (List.mem_singleton_self e))).symm
  | and _ _ ihx ihy =>
    obtain ⟨hxs, hys⟩ := List.forall_mem_append.mp hbool
    rw [eval, evalInTurn_append, ihx hxs, ihy hys]

/-! ## Chains -/

theorem evalLinks_boolValued (left : Value) (links : List (Relation × Expr)) :
    Except.GivesOnly (fun v => ∃ b, v = .bool b) (evalLinks store left links) := by
  induction links generalizing left with
  | nil =>
    rw [evalLinks]
    exact .pure ⟨true, rfl⟩
  | cons link links ih =>
    rw [evalLinks]
    refine .bind fun right => .bind fun holds => ?_
    cases holds with
    | true => exact ih right
    | false => exact .pure ⟨false, rfl⟩

theorem boolValued_compare (first : Expr) (links : List (Relation × Expr)) :
    BoolValued store (.compare first links) := by
  rw [BoolValued, eval]
  exact .bind fun left => evalLinks_boolValued left links

theorem boolValued_of_mem_comparisons {links : List (Relation × Expr)} {first e : Expr}
    (h : e ∈ comparisons first links) : BoolValued store e := by
  induction links generalizing first with
  | nil => cases h
  | cons link links ih =>
    rcases List.mem_cons.mp h with rfl | h
    · exact boolValued_compare first [link]
    · exact ih h

/-- The left operand moves on: what the next link compares is the value that this one evaluated. -/
theorem evalLinks_eq_inTurn (links : List (Relation × Expr)) {first : Expr} {left : Value}
    (hleft : eval store first = .ok left) :
    evalLinks store left links = evalInTurn store (comparisons first links) := by
  induction links generalizing first left with
  | nil => rw [evalLinks, comparisons, evalInTurn]
  | cons link links ih =>
    obtain ⟨relation, e⟩ := link
    rw [comparisons, evalInTurn, eval, hleft]
    change _ = (evalLinks store left [(relation, e)] >>= _)
    rw [evalLinks, evalLinks]
    cases he : eval store e with
    | error c => rfl
    | ok right =>
      change (lift (related relation left right) >>= _) =
        ((lift (related relation left right) >>= _) >>= _)
      cases lift (related relation left right) with
      | error c => rfl
      | ok holds =>
        cases holds with
        | false => rfl
        | true => exact ih he

theorem eval_compare (first : Expr) (link : Relation × Expr) (links : List (Relation × Expr)) :
    eval store (.compare first (link :: links)) =
      evalInTurn store (comparisons first (link :: links)) := by
  rw [eval]
  cases hfirst : eval store first with
  | ok left => exact evalLinks_eq_inTurn (link :: links) hfirst
  | error c =>
    obtain ⟨relation, e⟩ := link
    rw [comparisons, evalInTurn, eval, hfirst]
    rfl

end

/-- A chain has the value of the conjunction of its links, or fails as it does, however the
conjunction is grouped. The first link that does not hold, or fails, decides: links behind it
change nothing, whatever their operands come to. -/
theorem chain_is_conjunction (store : Store) (first : Expr) (link : Relation × Expr)
    (links : List (Relation × Expr)) :
    eval store (.compare first (link :: links)) =
        eval store ((comparisons link.2 links).foldl .and (.compare first [link])) ∧
      (∀ e, Conjoins (comparisons first (link :: links)) e →
        eval store (.compare first (link :: links)) = eval store e) ∧
      (eval store (.compare first (link :: links)) ≠ .ok (.bool true) →
        ∀ more, eval store (.compare first (link :: links ++ more)) =
          eval store (.compare first (link :: links))) := by
  have hgrouped : ∀ e, Conjoins (comparisons first (link :: links)) e →
      eval store (.compare first (link :: links)) = eval store e := by
    intro e he
    rw [eval_compare, eval_of_conjoins he fun x hx => boolValued_of_mem_comparisons hx]
  refine ⟨hgrouped _ ?_, hgrouped, fun h more => ?_⟩
  · exact conjoins_foldl (.one (.compare first [link])) (comparisons link.2 links)
  · obtain ⟨rest, hrest⟩ := comparisons_append first (link :: links) more
    have hbool : BoolValued store (.compare first (link :: links)) :=
      boolValued_compare first (link :: links)
    rw [BoolValued, eval_compare] at hbool
    rw [eval_compare] at h ⊢
    rw [List.cons_append, eval_compare, ← List.cons_append, hrest]
    exact evalInTurn_append_of_ne hbool h rest

/-- The second link does not hold, so the variable behind it, which is missing, does not matter. -/
theorem chain_is_conjunction_missing :
    let first : Expr := .lit (.int 1)
    let links : List (Relation × Expr) := [(.lt, .lit (.int 2)), (.gt, .lit (.int 5))]
    let more : List (Relation × Expr) := [(.eq, .var "missing")]
    let grouped : Expr := .and (.compare first [(.lt, .lit (.int 2))])
      (.and (.compare (.lit (.int 2)) [(.gt, .lit (.int 5))])
        (.compare (.lit (.int 5)) [(.eq, .var "missing")]))
    eval [] (.compare first links) = .ok (.bool false) ∧
      eval [] (.compare first (links ++ more)) = .ok (.bool false) ∧
      Conjoins (comparisons first (links ++ more)) grouped ∧
      eval [] grouped = .ok (.bool false) ∧
      eval [] (.var "missing") = .error (.undefinedVariable "missing") := by
  intro first links more grouped
  have hfalse : eval [] (.compare first links) = .ok (.bool false) := rfl
  have hmore := (chain_is_conjunction [] first (.lt, .lit (.int 2)) [(.gt, .lit (.int 5))]).2.2
    (fun h => nomatch hfalse.symm.trans h) more
  have hgrouped : Conjoins (comparisons first (links ++ more)) grouped :=
    .and (.one _) (.and (.one _) (.one _))
  have heval := (chain_is_conjunction [] first (.lt, .lit (.int 2))
    ((.gt, .lit (.int 5)) :: more)).2.1 grouped hgrouped
  exact ⟨hfalse, hmore.trans hfalse, hgrouped, heval.symm.trans (hmore.trans hfalse), rfl⟩

end Stepwise.Expr
