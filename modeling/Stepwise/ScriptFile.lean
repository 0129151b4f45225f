import Stepwise.Script
import Stepwise.Yaml.Node

/-!
# Script files

The ending of a file's name says how a script is written in it: as JSON, as YAML, or as stored text,
which is a snippet unless it looks like JSON.

* `ScriptFile.read`: the script in a file.
-/

namespace Stepwise

namespace Script

/-- A key that names the steps: their name, or their number among the parts of a script. Any other
key has to be a text or a natural number. -/
def isStepsKey? : Yaml.Node → Option Bool
  | .scalar (.str name) => some (name == "steps")
  | .scalar (.int n) => if 0 ≤ n then some (n == 0) else none
  | _ => none

/-- Reads a script from a document. -/
def ofNode? : Yaml.Node → Option Script
  | .scalar (.str source) => some (snippet source)
  | .map entries => do
    let marked ← entries.mapM fun e => return (← isStepsKey? e.1, e.2)
    match marked.filter (·.1) with
    | [] => return steps []
    | [(_, n)] => return steps (← stepsOf? (← n.value?))
    | _ => none
  | _ => none

end Script

namespace ScriptFile

/-- How a script is written in a file. -/
inductive Format where
  | json
  | yaml
  | stored
deriving DecidableEq

/-- The ending of a file's name: what follows its last dot, unless the name begins there. -/
def ending? (path : String) : Option String :=
  let name := (Text.dropEndWhile (· == '/') path.toList).reverse.takeWhile (· != '/')
  match name.dropWhile (· != '.') with
  | _ :: _ :: _ => some (String.ofList (name.takeWhile (· != '.')).reverse)
  | _ => none

/-- The format that the ending of a file's name stands for. -/
def format (path : String) : Format :=
  match (ending? path).map fun e => String.ofList (e.toList.map Char.toLower) with
  | some "json" => .json
  | some "yaml" | some "yml" => .yaml
  | _ => .stored

/-- Why there is no script. -/
inductive Fault where
  | missing (path : String)
  | invalid (format : Format) (path : String)

/-- A fault in words. -/
def Fault.message : Fault → String
  | missing path => "Failed to read script file: " ++ path
  | invalid .json path => "Invalid JSON script: " ++ path
  | invalid .yaml path => "Invalid YAML script: " ++ path
  | invalid .stored path => "Invalid script: " ++ path

/-- What a fault comes from, where that is known. -/
def Fault.cause? : Fault → Option String
  | missing _ => some "No such file or directory (os error 2)"
  | invalid .. => none

/-- Reads a script from the text in a file. -/
def ofText? : Format → String → Option Script
  | .json, text => (Script.ofJson text).toOption
  | .yaml, text => (Yaml.Node.parse? text).bind Script.ofNode?
  | .stored, text => (Script.ofText text).toOption

/-- The script in a file, of which the text is known if the file is there. -/
def read (path : String) : Option String → Except Fault Script
  | none => .error (.missing path)
  | some text =>
    match ofText? (format path) text with
    | some script => .ok script
    | none => .error (.invalid (format path) path)

end ScriptFile

end Stepwise
