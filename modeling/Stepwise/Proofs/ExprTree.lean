import Stepwise.Expr.Eval

/-!
# The tree of an expression

An expression holds its operands in lists, in links and by themselves. What is shown of expressions
is shown by one induction over an expression and its operands, and what is read off the whole tree
is folded along them.

* `Expr.operands`: the expressions an expression is built from.
* `Expr.induct`: induction over an expression and its operands.
* `Expr.fold_eq`: a fold sees a node and what its operands came to.
* `Expr.mem_names`, `Expr.height_eq`: the variables of a tree, and how high it is.
-/

namespace Stepwise.Expr

/-- The expressions an expression is built from, as they stand in it. -/
def operands : Expr → List Expr
  | .lit _ | .var _ => []
  | .list items => items
  | .neg operand | .not operand => [operand]
  | .and left right | .or left right | .arith _ left right => [left, right]
  | .compare first links => first :: links.map Prod.snd
  | .index target position => [target, position]
  | .call _ arguments => arguments

theorem sizeOf_lt_of_mem_operands {x e : Expr} (h : x ∈ e.operands) : sizeOf x < sizeOf e := by
  cases e with
  | lit | var => cases h
  | neg operand | not operand =>
    obtain rfl := List.mem_singleton.mp h
    simp
  | and left right | or left right | arith op left right | index target position =>
    simp only [operands, List.mem_cons, List.not_mem_nil, or_false] at h
    rcases h with rfl | rfl
    · simp +arith
    · simp +arith
  | list items | call function items =>
    have hx : sizeOf x < sizeOf items := List.sizeOf_lt_of_mem h
    exact Nat.lt_trans hx (by simp +arith)
  | compare first links =>
    rcases List.mem_cons.mp h with rfl | hx
    · simp +arith
    · obtain ⟨⟨relation, x⟩, hlink, rfl⟩ := List.mem_map.mp hx
      calc sizeOf x < sizeOf (relation, x) := by simp +arith
        _ < sizeOf links := List.sizeOf_lt_of_mem hlink
        _ < sizeOf (Expr.compare first links) := by simp +arith

/-- What an expression has from its operands, every expression has. -/
@[elab_as_elim]
theorem induct {motive : Expr → Prop} (step : ∀ e, (∀ x ∈ e.operands, motive x) → motive e)
    (e : Expr) : motive e :=
  step e fun x _ => induct step x
termination_by sizeOf e
decreasing_by exact sizeOf_lt_of_mem_operands ‹_›

/-! ## Folds -/

section Fold

variable {α : Type} (f : Expr → List α → α)

mutual

/-- Combines what the operands come to, node by node. -/
def fold : Expr → α
  | .lit v => f (.lit v) []
  | .var name => f (.var name) []
  | .list items => f (.list items) (foldAll items)
  | .neg operand => f (.neg operand) [fold operand]
  | .not operand => f (.not operand) [fold operand]
  | .and left right => f (.and left right) [fold left, fold right]
  | .or left right => f (.or left right) [fold left, fold right]
  | .arith op left right => f (.arith op left right) [fold left, fold right]
  | .compare first links => f (.compare first links) (fold first :: foldLinks links)
  | .index target position => f (.index target position) [fold target, fold position]
  | .call function arguments => f (.call function arguments) (foldAll arguments)

/-- What the expressions come to. -/
def foldAll : List Expr → List α
  | [] => []
  | e :: es => fold e :: foldAll es

/-- What the operands of links come to. -/
def foldLinks : List (Relation × Expr) → List α
  | [] => []
  | (_, e) :: links => fold e :: foldLinks links

end

theorem foldAll_eq (es : List Expr) : foldAll f es = es.map (fold f) := by
  induction es with
  | nil => rfl
  | cons e es ih => rw [foldAll, ih, List.map_cons]

theorem foldLinks_eq (links : List (Relation × Expr)) :
    foldLinks f links = (links.map Prod.snd).map (fold f) := by
  induction links with
  | nil => rfl
  | cons link links ih => rw [foldLinks, ih, List.map_cons, List.map_cons]

theorem fold_eq (e : Expr) : e.fold f = f e (e.operands.map (fold f)) := by
  cases e with
  | list | call => rw [fold, foldAll_eq]; rfl
  | compare => rw [fold, foldLinks_eq]; rfl
  | _ => rfl

end Fold

/-- The variable that an expression is. -/
def ownNames : Expr → List String
  | .var name => [name]
  | _ => []

theorem mem_ownNames {name : String} {e : Expr} : name ∈ e.ownNames ↔ e = .var name := by
  cases e <;> simp [ownNames, eq_comm]

/-- The variables of a tree, from left to right. -/
def names : Expr → List String := fold fun e parts => e.ownNames ++ parts.flatten

theorem names_eq (e : Expr) : e.names = e.ownNames ++ e.operands.flatMap names := by
  rw [List.flatMap_def]
  exact fold_eq _ e

theorem mem_names {name : String} {e : Expr} :
    name ∈ e.names ↔ e = .var name ∨ ∃ x ∈ e.operands, name ∈ x.names := by
  rw [names_eq, List.mem_append, List.mem_flatMap, mem_ownNames]

/-- The number of nodes on the longest path from the root. -/
def height : Expr → Nat := fold fun _ heights => heights.foldr max 0 + 1

theorem height_eq (e : Expr) : e.height = (e.operands.map height).foldr max 0 + 1 := fold_eq _ e

theorem foldr_max_le_iff {ns : List Nat} {n : Nat} : ns.foldr max 0 ≤ n ↔ ∀ k ∈ ns, k ≤ n := by
  induction ns with
  | nil => simp
  | cons k ns ih => rw [List.foldr_cons, Nat.max_le, ih, List.forall_mem_cons]

theorem height_le_iff {e : Expr} {n : Nat} :
    e.height ≤ n + 1 ↔ ∀ x ∈ e.operands, x.height ≤ n := by
  rw [height_eq, Nat.succ_le_succ_iff, foldr_max_le_iff, List.forall_mem_map]

end Stepwise.Expr
