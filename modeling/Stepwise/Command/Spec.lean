import Stepwise.Cause
import Stepwise.Command.Split
import Stepwise.Json.Print

/-!
# Commands

A command is written as one line or as a list of arguments. It is shown, and screened, as one line;
what is started is a program with arguments, or a shell that reads the line.

* `Spec.invocation`: what is started for a command.
-/

namespace Stepwise.Command

/-- A command as it was written. -/
inductive Spec where
  | line (text : String)
  | arguments (parts : List String)

/-- A program with its arguments. -/
structure Invocation where
  program : String
  arguments : List String
deriving DecidableEq

/-- All words of an invocation. -/
def Invocation.words (i : Invocation) : List String := i.program :: i.arguments

namespace Spec

/-- Reads a command from data: a text that is not blank, or a list that is not empty. -/
def ofValue? : Value → Option Spec
  | .str text => if Text.isAllBlank text then none else some (line text)
  | .list [] => none
  | .list parts => some (arguments (parts.map Value.display))
  | _ => none

/-- A command as one line. -/
def text : Spec → String
  | line text => text
  | arguments parts => String.intercalate " " parts

/-- What is started for a command: a shell with the line, or the program that its first word names.
An error says what is wrong with the command. -/
def invocation (shell : Bool) (c : Spec) : Except String Invocation :=
  if shell then .ok ⟨"sh", ["-c", c.text]⟩
  else
    let words? := match c with
      | line text => split? text
      | arguments parts => some parts
    match words? with
    | none => .error "unbalanced quotes in command line"
    | some [] => .error "command is empty"
    | some (program :: rest) => .ok ⟨program, rest⟩

end Spec

end Stepwise.Command
