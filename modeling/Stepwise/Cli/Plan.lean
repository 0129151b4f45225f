import Stepwise.Cli.Arguments
import Stepwise.Cli.Assignment
import Stepwise.Issue
import Stepwise.Paths
import Stepwise.ScriptFile
import Stepwise.Session

/-!
# The command line

What a command line asks for is either reported at once or is the execution of a script, whose
output is shown while it runs, and a report at its end.

* `Cli.plan`: what is to be done for a command line.
* `Plan.outcome`: what is reported in the end, with all lines that were shown.
-/

namespace Stepwise.Cli

/-- The lines on the two outputs, and the code to end with. -/
structure Report where
  out : List String := []
  err : List String := []
  code : Nat := 0

/-- A failure, with what it comes from if that is known. -/
def Report.failed (message : String) (cause? : Option String := none) : Report where
  err := ("Error: " ++ message) ::
    match cause? with
    | some cause => ["", "Caused by:", "    " ++ cause]
    | none => []
  code := 1

/-- What surrounds a command line. -/
structure Surroundings where
  home : String
  /-- The configuration file that the environment names. -/
  configPath : Option String := none
  /-- The text of a file, if it is there. -/
  file : String → Option String

/-- What is to be done. -/
inductive Plan where
  | report (r : Report)
  /-- Execute a script, and report what came of it, given the times of the steps in its history. -/
  | execute (session : Session) (script : Script)
      (ending : (Nat → String) → Except Outcome String → Run → Report)

/-- A plan that may come to its end early. -/
abbrev Planning := Except Report

/-- Where the configuration for a command line is found. -/
def configPlace (s : Surroundings) (settings : Settings) : String :=
  match settings.config.orElse fun _ => s.configPath with
  | some path => Paths.expandTilde s.home path
  | none => Paths.configFile s.home none "engine.json"

/-- The configuration for a command line. -/
def config (s : Surroundings) (settings : Settings) : Planning Config := do
  let path := configPlace s settings
  let config ← (Config.load path (s.file path)).mapError fun message => Report.failed message
  let config := { config with
    maxLoopIterations := settings.maxLoopIterations.getD config.maxLoopIterations
    commandTimeout := settings.commandTimeout.getD config.commandTimeout
    undefinedVariables :=
      if settings.strictVariables then .error else config.undefinedVariables }
  match config.problem? with
  | some message => .error (.failed "invalid engine configuration" (some message))
  | none => return config

/-- The script in a file. -/
def script (s : Surroundings) (file : String) : Planning Script :=
  (ScriptFile.read file (s.file file)).mapError fun f => .failed f.message f.cause?

/-- The failure of a script that has issues. -/
def issuesFailure (issues : List Issue) (file : String) : Report :=
  .failed (toString issues.length ++ " problem(s) found in " ++ file)

/-- Reports the issues of a script. -/
def check (s : Surroundings) (file : String) : Planning Report := do
  let issues := (← script s file).issues .builtins
  if issues.isEmpty then return { out := [file ++ ": ok"] }
  let line (i : Issue) : String :=
    i.path ++ ": [" ++ i.cause.category.text ++ "] " ++ i.cause.message
  return { issuesFailure issues file with out := issues.map line }

/-- A step in the history, with a time. -/
def stamped (time : String) (e : Run.Entry) : Value :=
  .dict [("timestamp", .str time), ("action", .str e.action), ("outcome", e.outcome.toValue)]

/-- Reports what came of a script, given the times of the steps in its history. -/
def ending (showsVariables : Bool) (time : Nat → String) (result : Except Outcome String)
    (r : Run) : Report :=
  let history := if r.options.logsHistory then
      [Json.wide (.list (r.history.toList.mapIdx fun i e => stamped (time i) e))]
    else []
  let stored := if showsVariables then [Json.wide (.dict r.store)] else []
  match result with
  | .ok message => { out := stored, err := history ++ [message] }
  | .error o =>
    let failure := Report.failed (o.action.getD "script" ++ " failed: " ++ o.message)
    { failure with out := stored, err := history ++ failure.err }

/-- Prepares the execution of a script that has no issues. -/
def run (s : Surroundings) (config : Config) (file : String) (assignments : List String)
    (logsHistory showsVariables : Bool) : Planning Plan := do
  let script ← script s file
  let initial ← (assignments.mapM assignment).mapError fun message => Report.failed message
  let issues := script.issues .builtins
  if !issues.isEmpty then
    let failure := issuesFailure issues file
    let line (i : Issue) : String := i.path ++ ": " ++ i.cause.message
    throw { failure with err := issues.map line ++ failure.err }
  let session := Session.create { config } file ⟨logsHistory⟩
  return .execute (session.update (·.seed initial)) script (ending showsVariables)

/-- Reports the actions that steps can ask for. -/
def actions (asData : Bool) : Report :=
  let actions := Registry.builtins.actions
  if asData then { out := [Json.wide (.list (actions.map Descriptor.toValue))] }
  else
    let line (d : Descriptor) : String :=
      let name := d.name ++ String.ofList (List.replicate (16 - d.name.length) ' ')
      let required := if d.required.isEmpty then ""
        else " (requires: " ++ String.intercalate ", " d.required ++ ")"
      name ++ " " ++ d.description ++ required
    { out := actions.map line }

/-- How the command line is used. -/
def usage : List String :=
  ["Run, inspect and validate automation scripts", "",
   "Usage: stepwise [OPTIONS] run FILE [--var NAME=VALUE]... [--log-history] [--show-variables]",
   "       stepwise [OPTIONS] check FILE",
   "       stepwise [OPTIONS] actions [--json]", "",
   "Options: --config FILE, --max-loop-iterations N, --command-timeout SECONDS, --strict-variables"]

/-- What is to be done for arguments. Help needs no configuration. -/
def planned (s : Surroundings) (a : Arguments) : Planning Plan := do
  if a.task matches .help then return .report { out := usage }
  let config ← config s a.settings
  match a.task with
  | .run file assignments logsHistory showsVariables =>
    run s config file assignments logsHistory showsVariables
  | .check file => return .report (← check s file)
  | .actions asData => return .report (actions asData)
  | .help | .nothing => return .report { out := usage }

/-- What is to be done for a command line. -/
def plan (s : Surroundings) (words : List String) : Plan :=
  match Arguments.parse? words with
  | none => .report { err := "error: the command line is not understood" :: "" :: usage, code := 2 }
  | some a =>
    match planned s a with
    | .ok plan => plan
    | .error r => .report r

/-- The files that a command line needs. -/
def filesNeeded (s : Surroundings) (words : List String) : List String :=
  match Arguments.parse? words with
  | none => []
  | some a =>
    match a.task with
    | .run file .. | .check file => [configPlace s a.settings, file]
    | _ => [configPlace s a.settings]

/-- What is reported in the end, with the lines of the script that were shown. -/
def Plan.outcome : Plan → Report
  | .report r => r
  | .execute session script ending =>
    let (result, lines, session) := session.stream script Span.max
    let r := ending (fun _ => "") result session.run
    { r with out := lines ++ r.out }

end Stepwise.Cli
