import Stepwise.Expr.Fault
import Stepwise.Text.Quoted

/-!
# Causes of failure

Everything that can go wrong while a script is read, checked or run. A cause has a category, a
message for the people who run scripts, and a diagnostic form that shows its parts quoted.
-/

namespace Stepwise

/-- The category of a cause. -/
inductive Category where
  | missingAction | unknownAction | missingField | invalidField | unsafeExpression | unsafeCommand
  | commandTimeout | commandFailed | loopLimitExceeded | undefinedVariable | httpTransport
  | jsonDecode | expression | cancelled | duplicateAction | runNotFound | runAlreadyStarted
  | invalidScript
deriving Repr, DecidableEq

namespace Category

/-- All categories. -/
def all : List Category :=
  [missingAction, unknownAction, missingField, invalidField, unsafeExpression, unsafeCommand,
   commandTimeout, commandFailed, loopLimitExceeded, undefinedVariable, httpTransport, jsonDecode,
   expression, cancelled, duplicateAction, runNotFound, runAlreadyStarted, invalidScript]

/-- The name of a category in data. -/
def text : Category → String
  | missingAction => "missing_action"
  | unknownAction => "unknown_action"
  | missingField => "missing_field"
  | invalidField => "invalid_field"
  | unsafeExpression => "unsafe_expression"
  | unsafeCommand => "unsafe_command"
  | commandTimeout => "command_timeout"
  | commandFailed => "command_failed"
  | loopLimitExceeded => "loop_limit_exceeded"
  | undefinedVariable => "undefined_variable"
  | httpTransport => "http_transport"
  | jsonDecode => "json_decode"
  | expression => "expression"
  | cancelled => "cancelled"
  | duplicateAction => "duplicate_action"
  | runNotFound => "run_not_found"
  | runAlreadyStarted => "run_already_started"
  | invalidScript => "invalid_script"

/-- The category with this name. -/
def ofText? (name : String) : Option Category := all.find? (·.text == name)

theorem ofText?_text (c : Category) : ofText? c.text = some c := by cases c <;> decide

/-- The run has ended for good, and nothing of it may be tried again. -/
def isFatal : Category → Bool
  | loopLimitExceeded | unsafeExpression | unsafeCommand => true
  | _ => false

/-- The step may be tried again. -/
def isRetryable : Category → Bool
  | commandTimeout | httpTransport => true
  | _ => false

end Category

/-- Why something failed. -/
inductive Cause where
  | missingAction
  | unknownAction (name : String)
  | missingField (action field : String)
  | invalidField (action field reason : String)
  | unsafeExpression (reason : String)
  | unsafeCommand (pattern : String)
  | commandTimeout (command : String) (seconds : Float)
  | commandFailed (command reason : String)
  | loopLimitExceeded (limit : Nat)
  | undefinedVariable (name : String)
  | httpTransport (reason : String)
  | jsonDecode (reason : String)
  | expression (fault : Expr.Fault)
  | cancelled
  | duplicateAction (name : String)
  | runNotFound (run : String)
  | runAlreadyStarted (run : String)
  | invalidScript (reason : String)
deriving DecidableEq

namespace Cause

/-- The category of a cause. -/
def category : Cause → Category
  | missingAction => .missingAction
  | unknownAction _ => .unknownAction
  | missingField .. => .missingField
  | invalidField .. => .invalidField
  | unsafeExpression _ => .unsafeExpression
  | unsafeCommand _ => .unsafeCommand
  | commandTimeout .. => .commandTimeout
  | commandFailed .. => .commandFailed
  | loopLimitExceeded _ => .loopLimitExceeded
  | undefinedVariable _ => .undefinedVariable
  | httpTransport _ => .httpTransport
  | jsonDecode _ => .jsonDecode
  | expression _ => .expression
  | cancelled => .cancelled
  | duplicateAction _ => .duplicateAction
  | runNotFound _ => .runNotFound
  | runAlreadyStarted _ => .runAlreadyStarted
  | invalidScript _ => .invalidScript

/-- What people are told. -/
def message : Cause → String
  | missingAction => "Action type is required"
  | unknownAction name => "Unsupported action type: " ++ name
  | missingField action field =>
    "Missing required option '" ++ field ++ "' for action '" ++ action ++ "'"
  | invalidField action field reason =>
    "Invalid option '" ++ field ++ "' for action '" ++ action ++ "': " ++ reason
  | unsafeExpression reason => "Expression contains potentially dangerous operations: " ++ reason
  | unsafeCommand pattern =>
    "Command contains potentially dangerous operations: '" ++ pattern ++ "'"
  | commandTimeout command seconds =>
    "Command timed out after " ++ Double.write .prose seconds ++ "s: " ++ command
  | commandFailed command reason => "Command could not be started: " ++ command ++ ": " ++ reason
  | loopLimitExceeded limit => "Loop exceeded the maximum of " ++ toString limit ++ " iterations"
  | undefinedVariable name => "Undefined variable: " ++ name
  | httpTransport reason => "HTTP request failed: " ++ reason
  | jsonDecode reason => "Failed to decode JSON response: " ++ reason
  | expression fault => "Invalid expression: " ++ fault.message
  | cancelled => "Run was cancelled"
  | duplicateAction name => "Action already registered: " ++ name
  | runNotFound run => "Run not found: " ++ run
  | runAlreadyStarted run => "Run already started: " ++ run
  | invalidScript reason => "Invalid script: " ++ reason

/-- A name with its parts in braces. -/
def record (name : String) (parts : List (String × String)) : String :=
  name ++ " \x7b " ++ String.intercalate ", " (parts.map fun p => p.1 ++ ": " ++ p.2) ++ " \x7d"

/-- The diagnostic form: the cause's name, and its parts with text quoted. -/
def diagnostic : Cause → String
  | missingAction => "MissingAction"
  | unknownAction name => record "UnknownAction" [("name", Text.quoted name)]
  | missingField action field =>
    record "MissingField" [("action", Text.quoted action), ("field", Text.quoted field)]
  | invalidField action field reason =>
    record "InvalidField"
      [("action", Text.quoted action), ("field", Text.quoted field), ("reason", Text.quoted reason)]
  | unsafeExpression reason => record "UnsafeExpression" [("reason", Text.quoted reason)]
  | unsafeCommand pattern => record "UnsafeCommand" [("pattern", Text.quoted pattern)]
  | commandTimeout command seconds =>
    record "CommandTimeout"
      [("command", Text.quoted command), ("timeout_secs", Double.write .diagnostic seconds)]
  | commandFailed command reason =>
    record "CommandFailed" [("command", Text.quoted command), ("reason", Text.quoted reason)]
  | loopLimitExceeded limit => record "LoopLimitExceeded" [("limit", toString limit)]
  | undefinedVariable name => record "UndefinedVariable" [("name", Text.quoted name)]
  | httpTransport reason => record "HttpTransport" [("reason", Text.quoted reason)]
  | jsonDecode reason => record "JsonDecode" [("reason", Text.quoted reason)]
  | expression fault => record "Expression" [("reason", Text.quoted fault.message)]
  | cancelled => "Cancelled"
  | duplicateAction name => record "DuplicateAction" [("name", Text.quoted name)]
  | runNotFound run => record "RunNotFound" [("run_id", Text.quoted run)]
  | runAlreadyStarted run => record "RunAlreadyStarted" [("run_id", Text.quoted run)]
  | invalidScript reason => record "InvalidScript" [("reason", Text.quoted reason)]

end Cause

end Stepwise
