import Stepwise.Double.Read

/-!
# Arguments of the command line

The command line names a task and its options. Some options may stand before the task as well as
behind it, and count behind it. No option stands twice in one place, and what is not understood is
refused as a whole.

* `Arguments.parse?`: reading the command line.
-/

namespace Stepwise.Cli

/-- Options that may stand before the task and behind it. -/
structure Settings where
  config : Option String := none
  maxLoopIterations : Option Nat := none
  commandTimeout : Option Float := none
  strictVariables : Bool := false

/-- What is asked for. -/
inductive Task where
  | run (file : String) (assignments : List String) (logsHistory showsVariables : Bool)
  | check (file : String)
  | actions (asData : Bool)
  | help
  /-- No task is named. -/
  | nothing

/-- A command line. -/
structure Arguments where
  settings : Settings
  task : Task

/-- The natural number of 64 bits that an option asks for. -/
def count? (text : String) : Option Nat :=
  let digits := match text.toList with
    | '+' :: rest => rest
    | cs => cs
  if digits.isEmpty || !digits.all Char.isDigit then none
  else some (Double.digitsValue digits) |>.filter (· < Nat.pow 2 64)

namespace Settings

/-- Sets an option that takes a value, unless it is set already. -/
def set? (s : Settings) (name value : String) : Option Settings :=
  match name with
  | "config" => if s.config.isSome then none else some { s with config := some value }
  | "max-loop-iterations" =>
    if s.maxLoopIterations.isSome then none
    else (count? value).map fun n => { s with maxLoopIterations := some n }
  | "command-timeout" =>
    if s.commandTimeout.isSome then none
    else (Double.read value).map fun x => { s with commandTimeout := some x }
  | _ => none

/-- The options before the task together with those behind it. -/
def merge (before behind : Settings) : Settings where
  config := behind.config.orElse fun _ => before.config
  maxLoopIterations := behind.maxLoopIterations.orElse fun _ => before.maxLoopIterations
  commandTimeout := behind.commandTimeout.orElse fun _ => before.commandTimeout
  strictVariables := before.strictVariables || behind.strictVariables

end Settings

/-- What has been read of a command line. -/
structure Draft where
  /-- The name of the task, once it has been read. -/
  task : Option String := none
  before : Settings := {}
  behind : Settings := {}
  file : Option String := none
  assignments : List String := []
  /-- The options without a value that stand behind the task. -/
  flags : List String := []
  /-- Options may still follow. -/
  options : Bool := true

namespace Draft

/-- The options with a value that may stand everywhere. -/
def valueNames : List String := ["config", "max-loop-iterations", "command-timeout"]

/-- The options without a value of a task. -/
def flagNames (task : String) : List String :=
  match task with
  | "run" => ["log-history", "show-variables"]
  | "actions" => ["json"]
  | _ => []

/-- An option takes a value. -/
def takesValue (d : Draft) (name : String) : Bool :=
  valueNames.contains name || (name == "var" && d.task == some "run")

/-- Sets an option that takes a value. -/
def setValue? (d : Draft) (name value : String) : Option Draft :=
  if name == "var" then some { d with assignments := d.assignments ++ [value] }
  else if d.task.isNone then (d.before.set? name value).map fun s => { d with before := s }
  else (d.behind.set? name value).map fun s => { d with behind := s }

/-- Sets an option without a value. -/
def setFlag? (d : Draft) (name : String) : Option Draft :=
  match d.task with
  | none =>
    if name == "strict-variables" && !d.before.strictVariables then
      some { d with before := { d.before with strictVariables := true } }
    else none
  | some task =>
    if name == "strict-variables" && !d.behind.strictVariables then
      some { d with behind := { d.behind with strictVariables := true } }
    else if (flagNames task).contains name && !d.flags.contains name then
      some { d with flags := name :: d.flags }
    else none

/-- Takes a word that is no option: the task, or its file. -/
def takeWord? (d : Draft) (word : String) : Option Draft :=
  match d.task with
  | none =>
    if d.options && ["run", "check", "actions", "help"].contains word then
      some { d with task := some word }
    else none
  | some "help" => some d
  | some "actions" => none
  | some _ => if d.file.isSome || word.isEmpty then none else some { d with file := some word }

/-- A word that begins like an option. -/
def looksLikeOption (word : String) : Bool := word.startsWith "-" && word != "-"

/-- What a finished draft asks for. -/
def task? (d : Draft) : Option Task :=
  match d.task with
  | some "run" =>
    d.file.map fun file =>
      .run file d.assignments (d.flags.contains "log-history") (d.flags.contains "show-variables")
  | some "check" => d.file.map .check
  | some "actions" => some (.actions (d.flags.contains "json"))
  | some _ => some .help
  | none => some .nothing

/-- How an option is written in a word. -/
inductive Written where
  | word
  /-- No options follow. -/
  | ending
  | option (name : String) (value : Option String)

/-- How an option is written in a word. The one-letter option for a variable may stand right before
its value. -/
def written (d : Draft) (word : String) : Written :=
  if !d.options || !looksLikeOption word then .word
  else match word.toList with
    | ['-', '-'] => .ending
    | '-' :: '-' :: cs =>
      let name := String.ofList (cs.takeWhile (· != '='))
      match cs.dropWhile (· != '=') with
      | _ :: value => .option name (some (String.ofList value))
      | [] => .option name none
    | '-' :: 'v' :: cs =>
      match cs with
      | [] => .option (if d.task == some "run" then "var" else "v") none
      | '=' :: value => .option (if d.task == some "run" then "var" else "v") (String.ofList value)
      | value => .option (if d.task == some "run" then "var" else "v") (String.ofList value)
    | ['-', 'h'] => .option "help" none
    | _ => .option "" none

/-- Reads the rest of a command line. -/
def read? (d : Draft) : List String → Option Arguments
  | [] => d.task?.map fun task => ⟨d.before.merge d.behind, task⟩
  | word :: rest =>
    match d.written word with
    | .word =>
      match d.takeWord? word with
      | none => none
      | some d => read? d rest
    | .ending => read? { d with options := false } rest
    | .option name (some value) =>
      if d.takesValue name then
        match d.setValue? name value with
        | none => none
        | some d => read? d rest
      else none
    | .option name none =>
      if name == "help" then some ⟨{}, .help⟩
      else if d.takesValue name then
        match rest with
        | [] => none
        | value :: rest =>
          if looksLikeOption value then none
          else match d.setValue? name value with
            | none => none
            | some d => read? d rest
      else match d.setFlag? name with
        | none => none
        | some d => read? d rest

end Draft

/-- Reads a command line. -/
def Arguments.parse? (words : List String) : Option Arguments := Draft.read? {} words

end Stepwise.Cli
