import Stepwise.Json.Parse
import Stepwise.Store
import Stepwise.Text.Blank

/-!
# Variables given on the command line

A variable is given as a name and a value with an equals sign between them. The value is data if it
reads as data, and otherwise a text.
-/

namespace Stepwise.Cli

/-- Reads a variable given on the command line, or says what is wrong with it. -/
def assignment (raw : String) : Except String (String × Value) :=
  let cs := raw.toList
  match cs.dropWhile (· != '=') with
  | [] => .error ("expected NAME=VALUE, got '" ++ raw ++ "'")
  | _ :: rest =>
    let name := Text.trim (String.ofList (cs.takeWhile (· != '=')))
    let text := String.ofList rest
    if isIdentifier name then .ok (name, (Json.parse text).toOption.getD (.str text))
    else .error ("'" ++ name ++ "' is not a valid variable name")

end Stepwise.Cli
