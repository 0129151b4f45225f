import Stepwise.Action.Field

/-!
# The built-in actions

Ten actions, each with its name, its fields and the fields that are handed over as they were
written. The shapes of the fields make up the schema by which an action is described to others.
-/

namespace Stepwise.Action

/-- A built-in action. -/
inductive Kind where
  | setVar | printMsg | executeCommand | eval | condition | loop | delay | trigger | httpRequest
  | combineData
deriving Repr, DecidableEq

namespace Kind

/-- All built-in actions, in the order in which they are listed. -/
def all : List Kind :=
  [setVar, printMsg, executeCommand, eval, condition, loop, delay, trigger, httpRequest,
   combineData]

/-- The name steps call an action by. -/
def name : Kind → String
  | setVar => "set_var"
  | printMsg => "print_msg"
  | executeCommand => "execute_command"
  | eval => "eval"
  | condition => "condition"
  | loop => "loop"
  | delay => "delay"
  | trigger => "trigger"
  | httpRequest => "http_request"
  | combineData => "combine_data"

/-- What an action does. -/
def description : Kind → String
  | setVar => "Set a variable"
  | printMsg => "Print a message to the run output"
  | executeCommand => "Run a host command and capture its output"
  | eval => "Evaluate an expression and return its value"
  | condition => "Run one of two step lists depending on a condition"
  | loop => "Repeat steps while a condition holds, or a fixed number of times"
  | delay => "Wait for a number of seconds"
  | trigger => "Record a time, interval or event trigger"
  | httpRequest => "Send an HTTP request and store the response"
  | combineData => "Merge objects from variables and inline data"

/-- The title of an action's schema. -/
def title : Kind → String
  | setVar => "SetVarFields"
  | printMsg => "PrintMsgFields"
  | executeCommand => "ExecuteCommandFields"
  | eval => "EvalFields"
  | condition => "ConditionFields"
  | loop => "LoopFields"
  | delay => "DelayFields"
  | trigger => "TriggerFields"
  | httpRequest => "HttpRequestFields"
  | combineData => "CombineDataFields"

/-- The fields of an action. -/
def fields : Kind → List Field
  | setVar =>
    [⟨"name", .text, true, "Variable name; must be an identifier"⟩,
     ⟨"value", .data, true, "Value to store, after placeholder resolution"⟩,
     ⟨"eval", .flag, false, "Evaluate the value as an expression and store the result"⟩]
  | printMsg =>
    [⟨"message", .data, true, "Message appended to the run output"⟩,
     ⟨"eval", .flag, false, "Evaluate the message as an expression and print the result"⟩]
  | executeCommand =>
    [⟨"command", .data, true, "Command line, or a list of program and arguments."⟩,
     ⟨"shell", .flag, false, "Run the command through the platform shell"⟩,
     ⟨"timeout", .number, false, "Timeout in seconds"⟩]
  | eval => [⟨"expression", .text, true, "Sandboxed expression to evaluate"⟩]
  | condition =>
    [⟨"condition", .data, true, "Expression deciding which branch runs"⟩,
     ⟨"if_true", .list, true, "Steps run when the condition holds"⟩,
     ⟨"if_false", .list, true, "Steps run otherwise"⟩]
  | loop =>
    [⟨"condition", .data, false, "Expression re-resolved and re-evaluated before every iteration"⟩,
     ⟨"iterations", .number, false,
       "Fixed pass count; sets loop_index to 0, 1, ... instead of checking a condition"⟩,
     ⟨"loop_steps", .list, true, "Steps run on each iteration"⟩,
     ⟨"max_iterations", .number, false, "Iteration limit overriding the configured default"⟩]
  | delay =>
    [⟨"seconds", .data, true, "Seconds to wait; fractions allowed"⟩,
     ⟨"eval", .flag, false, "Evaluate `seconds` as an expression"⟩]
  | trigger =>
    [⟨"type", .text, true, "One of time_based, interval or event_based"⟩,
     ⟨"steps", .list, true, "Steps to run when the trigger fires"⟩,
     ⟨"config", .data, false, "Free-form settings passed to the scheduler"⟩,
     ⟨"time", .text, false, "When a time_based trigger fires"⟩,
     ⟨"interval", .number, false, "Seconds between interval trigger firings"⟩,
     ⟨"event", .text, false, "Event name an event_based trigger waits for"⟩]
  | httpRequest =>
    [⟨"url", .text, true, "Absolute request URL"⟩,
     ⟨"method", .text, false, "GET, POST, PUT, DELETE, PATCH, HEAD or OPTIONS; defaults to GET"⟩,
     ⟨"headers", .dict, false, "Request headers as an object"⟩,
     ⟨"params", .dict, false, "Query parameters as an object"⟩,
     ⟨"cookies", .dict, false, "Cookies as an object"⟩,
     ⟨"proxy", .text, false, "Proxy URL used for every scheme"⟩,
     ⟨"content_type", .text, false, "Content-Type header value"⟩,
     ⟨"json", .data, false, "JSON request body"⟩,
     ⟨"data", .data, false, "Object bodies are form encoded; anything else is sent as text."⟩,
     ⟨"timeout", .number, false, "Total timeout in seconds"⟩,
     ⟨"allow_redirects", .flag, false, "Follow redirects; defaults to true"⟩,
     ⟨"verify_ssl", .flag, false, "Verify TLS certificates; defaults to true"⟩,
     ⟨"return_json", .flag, false, "Decode the body as JSON whatever the response content type"⟩,
     ⟨"return_var", .text, false, "Variable receiving the response body; defaults to response"⟩]
  | combineData =>
    [⟨"data_sources", .list, true,
       "Variable names holding objects, or inline objects, merged left to right."⟩,
     ⟨"output_var", .text, false, "Variable receiving the merged object"⟩]

/-- The fields in which placeholders are left alone: lists of steps, and the condition of a loop,
which is read anew for every pass. -/
def raw : Kind → List String
  | condition => ["if_true", "if_false"]
  | loop => ["condition", "loop_steps"]
  | trigger => ["steps"]
  | _ => []

/-- The schema of a field. -/
def property (f : Field) : Value :=
  let type (name : String) : Value :=
    if f.required then .str name else .list [.str name, .str "null"]
  .dict
    (("description", .str f.description) ::
      match f.shape with
      | .text => [("type", type "string")]
      | .data => []
      | .list => [("type", type "array"), ("items", .bool true)]
      | .dict => [("type", type "object"), ("additionalProperties", .bool true)]
      | .flag => [("type", type "boolean"), ("default", .null)]
      | .number => [("type", type "number"), ("format", .str "double"), ("default", .null)])

/-- The schema of an action. -/
def schema (k : Kind) : Value :=
  .dict
    [("$schema", .str "https://json-schema.org/draft/2020-12/schema"), ("title", .str k.title),
     ("type", .str "object"), ("properties", .dict (k.fields.map fun f => (f.name, property f))),
     ("required", .list ((k.fields.filter (·.required)).map fun f => .str f.name))]

end Kind

end Stepwise.Action
