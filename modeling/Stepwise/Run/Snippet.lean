import Stepwise.Issue
import Stepwise.Run.Dispatch

/-!
# Snippets

A snippet is a text with one statement a line: a line that prints, a line that assigns a variable,
or an expression whose value is thrown away. Every line passes both screens before anything in it is
evaluated, and the process waits for its turn before every statement.

* `Statement.ofLine`: what a line says.
* `Snippet.process`: the process of a snippet.
-/

namespace Stepwise

/-- What a line of a snippet says. -/
inductive Statement where
  | print (arguments : List Char)
  | assign (name expression : List Char)
  | evaluate (expression : List Char)
deriving DecidableEq

namespace Statement

open Text

/-- The arguments of a line that prints. -/
def printed? (cs : List Char) : Option (List Char) :=
  (behind? "print".toList cs).bind fun rest =>
    match rest.dropWhile isBlank with
    | '(' :: rest =>
      if rest.getLast? == some ')' && !rest.contains '\n' then some rest.dropLast else none
    | _ => none

/-- The name and the expression of a line that assigns. -/
def assigned? (cs : List Char) : Option (List Char × List Char) :=
  let name := cs.takeWhile continuesIdentifier
  match (cs.dropWhile continuesIdentifier).dropWhile isBlank with
  | '=' :: c :: rest =>
    if isIdentifierChars name && c != '=' && !(c :: rest).contains '\n' then
      some (name, trimChars (c :: rest))
    else none
  | _ => none

/-- What a line says. -/
def ofLine (cs : List Char) : Statement :=
  match printed? cs with
  | some arguments => print arguments
  | none =>
    match assigned? cs with
    | some (name, expression) => assign name expression
    | none => evaluate cs

end Statement

namespace Snippet

open Attempt (settled access)

/-- The name under which statements stand in the history. -/
def actionName : String := "legacy_script"

/-- What printed arguments show. -/
def shown : Value → String
  | .list items => String.intercalate " " (items.map Value.display)
  | v => v.display

/-- Carries out a statement, and tells what it did. -/
def carryOut : Statement → Attempt String
  | .print arguments => do
    let store ← access .read
    let v ← settled (Expr.evaluate (String.ofList ('[' :: arguments ++ [']'])) store)
    access (.print (shown v))
    return "Printed msg"
  | .assign name expression => do
    let name := String.ofList name
    let store ← access .read
    let v ← settled (Expr.evaluate (String.ofList expression) store)
    access (.assign name v)
    return "Variable '" ++ name ++ "' set to '" ++ v.display ++ "'"
  | .evaluate expression => do
    let store ← access .read
    let v ← settled (Expr.evaluate (String.ofList expression) store)
    return "Evaluated to " ++ v.display

/-- Screens a line and carries it out. -/
def carryOutLine (line : String) : Attempt String := do
  settled (screen line)
  carryOut (.ofLine line.toList)

/-- The outcome of a failure in a line. -/
def failure (config : Config) (index : Nat) (cause : Cause) : Outcome :=
  let o := Outcome.failure (some actionName) config.diagnosticLimit cause
  { o with message := linePath index ++ ": " ++ cause.message }

/-- Carries out statements, of which so many are done. -/
def statementsFrom (config : Config) (done : Nat) :
    List (Nat × String) → Process (Except Outcome String)
  | [] =>
    return .ok ("Legacy script executed successfully with " ++ toString done ++ " statements")
  | (index, line) :: rest => do
    .ofWait .turn
    if ← .ofAccess (.poll .line) then return .error (failure config index .cancelled)
    .ofAccess (.enter index)
    let outcome := match ← (carryOutLine line).run with
      | .ok message => Outcome.success actionName message
      | .error cause => failure config index cause
    .ofAccess (.log ⟨actionName, outcome⟩)
    if outcome.isError then return .error outcome
    statementsFrom config (done + 1) rest

/-- The process of a snippet. -/
def process (config : Config) (source : String) : Process (Except Outcome String) :=
  statementsFrom config 0 (statements source)

end Snippet

end Stepwise
