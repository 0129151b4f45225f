import Stepwise.Value
import Stepwise.Expr.Token

/-!
# Expression trees

An expression is a literal, a variable, or is built from others. A comparison chain such as
`a < b <= c` is one node with all its operands.
-/

namespace Stepwise

namespace Expr

/-- The arithmetic operators. -/
inductive Arith where
  | add | sub | mul | div | floorDiv | mod
deriving Repr, DecidableEq

/-- How an arithmetic operator is written. -/
def Arith.text : Arith → String
  | add => "+"
  | sub => "-"
  | mul => "*"
  | div => "/"
  | floorDiv => "//"
  | mod => "%"

/-- The relations a comparison asks for. -/
inductive Relation where
  | eq | ne | lt | le | gt | ge | isIn | notIn
deriving Repr, DecidableEq

/-- How a relation is written. -/
def Relation.text : Relation → String
  | eq => "=="
  | ne => "!="
  | lt => "<"
  | le => "<="
  | gt => ">"
  | ge => ">="
  | isIn => "in"
  | notIn => "not in"

end Expr

/-- An expression. -/
inductive Expr where
  | lit (value : Value)
  | var (name : String)
  | list (items : List Expr)
  | neg (operand : Expr)
  | not (operand : Expr)
  | and (left right : Expr)
  | or (left right : Expr)
  | arith (op : Expr.Arith) (left right : Expr)
  | compare (first : Expr) (links : List (Expr.Relation × Expr))
  | index (target position : Expr)
  | call (function : String) (arguments : List Expr)
deriving Inhabited

end Stepwise
