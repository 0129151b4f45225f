import Stepwise.Expr.Parse

/-!
# Why an expression has no value

An expression fails because its text cannot be read or because an operation does not apply. Types
are named as in `Value.typeName`.
-/

namespace Stepwise.Expr

/-- What became too long. -/
inductive Built where
  | joinedString | joinedList | repeatedString | repeatedList
deriving Repr, DecidableEq

/-- Why an operation has no result. -/
inductive EvalFault where
  | tooLong (what : Built)
  | notFinite
  | overflow
  | divisionByZero
  | badNegation (type : String)
  | badOperands (op : Arith) (left right : String)
  | badCount (type : String)
  | unorderable (left right : String)
  | badMembership (container item : String)
  | badIndex (type : String)
  | outOfRange
  | missingKey (key : String)
  | notSubscriptable (type : String)
  | noLength (type : String)
  | absOfNonNumber
  | roundArity
  | roundOfNonNumber
  | emptySequence (function : String)
  | unknownFunction (name : String)
  | oneArgument (function : String)
  | badIntText (text : String)
  | badIntType (type : String)
  | badFloatText (text : String)
  | badFloatType (type : String)
deriving DecidableEq

/-- Why an expression has no value. -/
inductive Fault where
  | parse (fault : ParseFault)
  | eval (fault : EvalFault)
deriving DecidableEq

/-- A text between single quotes. -/
def ticked (s : String) : String := "'" ++ s ++ "'"

def TokenFault.message : TokenFault → String
  | strayCharacter c => "unexpected character " ++ ticked (String.singleton c)
  | badNumber lexeme => "invalid number literal " ++ ticked lexeme
  | openString => "unterminated string literal"

def ParseFault.message : ParseFault → String
  | token fault => fault.message
  | empty => "empty expression"
  | unexpected t => "unexpected " ++ t.describe
  | unexpectedEnd => "unexpected end of expression"
  | expected mark found =>
    "expected " ++ ticked mark.text ++ ", found "
      ++ (match found with
        | some t => t.describe
        | none => "end of expression")
  | tooDeep => "expression nested too deeply"
  | attributeAccess => "attribute access is not supported"

def Built.text : Built → String
  | joinedString => "concatenated string"
  | joinedList => "concatenated list"
  | repeatedString => "repeated string"
  | repeatedList => "repeated list"

def EvalFault.message : EvalFault → String
  | tooLong what => what.text ++ " is too long"
  | notFinite => "result is not a finite number"
  | overflow => "integer overflow"
  | divisionByZero => "division by zero"
  | badNegation type => "bad operand type for unary -: " ++ ticked type
  | badOperands op left right =>
    "unsupported operand types for " ++ op.text ++ ": " ++ ticked left ++ " and " ++ ticked right
  | badCount type => "can't multiply sequence by non-int of type " ++ ticked type
  | unorderable left right => "'<' not supported between " ++ ticked left ++ " and " ++ ticked right
  | badMembership container item =>
    "'in <" ++ container ++ ">' requires a matching operand, got " ++ ticked item
  | badIndex type => "indices must be integers, not " ++ ticked type
  | outOfRange => "index out of range"
  | missingKey key => "key not found: " ++ ticked key
  | notSubscriptable type => ticked type ++ " is not subscriptable"
  | noLength type => "object of type " ++ ticked type ++ " has no len()"
  | absOfNonNumber => "abs() requires a number"
  | roundArity => "round() takes one or two arguments"
  | roundOfNonNumber => "round() requires a number"
  | emptySequence function => function ++ "() arg is an empty sequence"
  | unknownFunction name => "unknown function " ++ ticked name
  | oneArgument function => function ++ "() takes exactly one argument"
  | badIntText text => "invalid literal for int(): " ++ ticked text
  | badIntType type => "int() argument must be a number or string, not " ++ ticked type
  | badFloatText text => "could not convert string to float: " ++ ticked text
  | badFloatType type => "float() argument must be a number or string, not " ++ ticked type

def Fault.message : Fault → String
  | parse fault => fault.message
  | eval fault => fault.message

end Stepwise.Expr
