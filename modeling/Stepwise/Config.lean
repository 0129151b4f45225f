import Stepwise.Template
import Stepwise.Json.Parse

/-!
# Configuration

The limits and policies shared by every run of an engine. A configuration is read from a
dictionary or from a list of fields in their order; what is absent keeps its default, unknown names
are ignored, and a value of the wrong shape is refused.
-/

namespace Stepwise

/-- Limits and policies of an engine. -/
structure Config where
  maxLoopIterations : Nat := 1000
  commandTimeout : Float := 60.0
  httpTimeout : Float := 10.0
  outputCapacity : Nat := 1000
  streamCapacity : Nat := 256
  undefinedVariables : Template.Policy := .preserve
  diagnosticLimit : Nat := 2000

/-- A span of time in whole seconds and nanoseconds. -/
structure Span where
  seconds : Nat
  nanos : Nat
deriving Repr, DecidableEq

namespace Span

/-- The longest span. -/
def max : Span := ⟨Nat.pow 2 64 - 1, 999999999⟩

/-- All nanoseconds of a span. -/
def total (s : Span) : Nat := s.seconds * 1000000000 + s.nanos

/-- The span nearest to a number of seconds, halves to the even nanosecond. Negative and
undefined numbers are no time at all, and what is too long is the longest span. -/
def ofSeconds (x : Float) : Span :=
  if x.isFinite && 0 < x then
    let p := Double.parts x
    let nanos := Double.Parts.round { p with mantissa := p.mantissa * 1000000000 } Double.divHalfEven
    if nanos / 1000000000 < Nat.pow 2 64 then ⟨nanos / 1000000000, nanos % 1000000000⟩ else max
  else ⟨0, 0⟩

end Span

namespace Template.Policy

/-- The name of a policy in data. -/
def text : Policy → String
  | preserve => "preserve"
  | error => "error"

/-- The policy with this name. -/
def ofText? : String → Option Policy
  | "preserve" => some preserve
  | "error" => some error
  | _ => none

end Template.Policy

namespace Config

/-- A count: an integer of 64 bits without sign. -/
def count? : Value → Option Nat
  | .int n => if 0 ≤ n && n < Nat.pow 2 64 then some n.toNat else none
  | _ => none

/-- A number as a double. -/
def number? : Value → Option Float
  | .int n => some (Float.ofInt n)
  | .float x => some x
  | _ => none

/-- The names of the fields, in their order. -/
def fieldNames : List String :=
  ["max_loop_iterations", "command_timeout_secs", "http_timeout_secs", "output_capacity",
   "stream_capacity", "undefined_variables", "diagnostic_limit"]

/-- Sets one field. A name that is no field changes nothing. -/
def set? (config : Config) (name : String) (v : Value) : Option Config :=
  match name with
  | "max_loop_iterations" => (count? v).map fun n => { config with maxLoopIterations := n }
  | "command_timeout_secs" => (number? v).map fun x => { config with commandTimeout := x }
  | "http_timeout_secs" => (number? v).map fun x => { config with httpTimeout := x }
  | "output_capacity" => (count? v).map fun n => { config with outputCapacity := n }
  | "stream_capacity" => (count? v).map fun n => { config with streamCapacity := n }
  | "undefined_variables" =>
    (v.tag?.bind Template.Policy.ofText?).map fun p => { config with undefinedVariables := p }
  | "diagnostic_limit" => (count? v).map fun n => { config with diagnosticLimit := n }
  | _ => some config

/-- No field is set twice. -/
def distinctFields (entries : Entries Value) : Bool :=
  let names := entries.names.filter fieldNames.contains
  names.eraseDups.length == names.length

/-- Reads a configuration from data. -/
def ofValue? (v : Value) : Option Config := do
  let entries ← v.record? fieldNames
  if distinctFields entries then entries.foldlM (fun c e => c.set? e.1 e.2) {} else none

/-- The configuration as data. -/
def toValue (c : Config) : Value :=
  .dict
    [("max_loop_iterations", .int c.maxLoopIterations),
     ("command_timeout_secs", .float c.commandTimeout),
     ("http_timeout_secs", .float c.httpTimeout),
     ("output_capacity", .int c.outputCapacity),
     ("stream_capacity", .int c.streamCapacity),
     ("undefined_variables", .str c.undefinedVariables.text),
     ("diagnostic_limit", .int c.diagnosticLimit)]

/-- A number of seconds that can be waited for. -/
def isPositive (x : Float) : Bool := x.isFinite && 0 < x

/-- What makes an engine unusable, if anything does. -/
def problem? (c : Config) : Option String :=
  if c.maxLoopIterations = 0 then some "max_loop_iterations must be at least 1"
  else if c.outputCapacity = 0 || c.streamCapacity = 0 then
    some "output_capacity and stream_capacity must be at least 1"
  else if !isPositive c.commandTimeout then
    some "command_timeout_secs must be a positive number of seconds"
  else if !isPositive c.httpTimeout then
    some "http_timeout_secs must be a positive number of seconds"
  else none

/-- Reads the configuration file at a path, of which the text is given unless there is none. -/
def load (path : String) (content : Option String) : Except String Config :=
  match content with
  | none => .ok {}
  | some text =>
    let read : Option Config := do
      let (v, rest) ← (Json.readPrefix Json.depthLimit text.toList).toOption
      let config ← ofValue? v
      (Json.finish rest).toOption
      return config
    match read with
    | none => .error ("parsing engine config " ++ path)
    | some config =>
      match config.problem? with
      | some message => .error message
      | none => .ok config

end Config

end Stepwise
