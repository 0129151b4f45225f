import Stepwise.Text.Blank

/-!
# Where configuration is found

A configuration file is named by an environment variable or lies in the user's configuration
directory. A leading tilde stands for the home directory.
-/

namespace Stepwise.Paths

/-- A path followed by another, which counts alone when it is absolute. -/
def join (base path : String) : String :=
  if path.startsWith "/" then path
  else if base.isEmpty || base.endsWith "/" then base ++ path
  else base ++ "/" ++ path

/-- The path with a leading tilde replaced by the home directory. -/
def expandTilde (home path : String) : String :=
  let path := Text.trim path
  if path == "~" then home
  else
    match path.toList with
    | '~' :: '/' :: rest | '~' :: '\\' :: rest => join home (String.ofList rest)
    | _ => path

/-- The name of the application's directory among the configuration directories. -/
def appDirectory : String := "runbook"

/-- The place of a configuration file: the given override unless it is blank, and otherwise a file
in the user's configuration directory. -/
def configFile (home : String) (overriding : Option String) (file : String) : String :=
  match overriding with
  | some path =>
    if Text.isAllBlank path then join (join (join home ".config") appDirectory) file
    else expandTilde home path
  | none => join (join (join home ".config") appDirectory) file

end Stepwise.Paths
