import Stepwise.Action.Read
import Stepwise.Expr.Eval
import Stepwise.Run.Process
import Stepwise.Template

/-!
# Dispatching steps

A step is dispatched in two parts. It is prepared: the action is looked up, placeholders are
replaced in the fields the action reads, and the result is checked; a step that fails here leaves no
trace. Then its action is carried out and the outcome goes into the history. Lists of steps inside a
step are run as they were written, so that every step sees the variables as they are when it runs.

* `Engine.dispatch`: the process of one step.
* `Engine.runSteps`: steps one after the other, up to the first that fails.
-/

namespace Stepwise

/-- The actions that can be carried out, and the limits and policies for them. -/
structure Engine where
  registry : Registry := .builtins
  config : Config := {}

/-- A process that may fail with a cause. -/
abbrev Attempt := ExceptT Cause Process

namespace Attempt

/-- What has succeeded or failed already. -/
def settled {α : Type} (result : Except Cause α) : Attempt α := ExceptT.mk (.done result)

/-- A single access. -/
def access (c : Run.Access) : Attempt c.Answer := ExceptT.lift (.ofAccess c)

/-- A single wait. -/
def wait (w : Wait) : Attempt w.Answer := ExceptT.lift (.ofWait w)

end Attempt

namespace Engine

open Attempt (settled access wait)

/-! ## Preparation -/

/-- The value of a field as the action will see it: with placeholders replaced, unless the field
is raw. -/
def filled (e : Engine) (d : Descriptor) (store : Store) (field : String) (v : Value) :
    Except Cause Value :=
  if d.raw.contains field then .ok v else Template.resolve store e.config.undefinedVariables v

/-- The fields an action reads, in their order, with their values filled. -/
def fieldsRead (e : Engine) (d : Descriptor) (store : Store) :
    List (String × Value) → Except Cause (Entries Value)
  | [] => .ok []
  | (field, v) :: rest =>
    if d.declares field then do
      let v ← e.filled d store field v
      let rest ← fieldsRead e d store rest
      return (field, v) :: rest
    else fieldsRead e d store rest

/-- The step handed over to an action: the action's name first, which the action may read like any
other field, and then the fields it reads. -/
def handedOver (name : String) (fields : Entries Value) : Step :=
  ⟨("action", (fields.get? "action").getD (.str name)) :: fields.filter (·.1 ≠ "action")⟩

/-- The action of a step, which must be known, and the step must have its required fields. -/
def actionOf (e : Engine) (s : Step) : Except Cause Descriptor := do
  let some name := s.action? | .error .missingAction
  let d ← e.registry.lookup name
  match d.missing? s with
  | some field => .error (.missingField name field)
  | none => return d

/-- A step made ready for its action. -/
def ready (e : Engine) (d : Descriptor) (store : Store) (s : Step) : Except Cause Step := do
  let handed := handedOver (s.action?.getD "") (← e.fieldsRead d store s.fields)
  d.handler.check handed
  return handed

/-- Prepares a step: its action, and the step as the action will see it. -/
def prepare (e : Engine) (s : Step) : Attempt (Descriptor × Step) := do
  if ← access (.poll (.step s)) then throw Cause.cancelled
  let d ← settled (e.actionOf s)
  let store ← access .read
  return (d, ← settled (e.ready d store s))

/-! ## Actions -/

/-- A value, or what it evaluates to. -/
def valueOf (v : Value) (evaluated : Bool) : Attempt Value := do
  if evaluated then
    let store ← access .read
    settled (Expr.evaluate v.display store)
  else return v

/-- The truth of a condition: a text is evaluated, and other data is judged as it is. -/
def conditionHolds (v : Value) (store : Store) : Except Cause Bool :=
  match v with
  | .str text => (Expr.evaluate text store).map Value.truthy
  | v => .ok v.truthy

/-- The merged entries of sources: dictionaries, or variables that hold them. -/
def merged (store : Store) (done : Entries Value) : List Value → Except Cause (Entries Value)
  | [] => .ok done
  | .dict entries :: rest => merged store (done.extend entries) rest
  | .str name :: rest =>
    match store.get? name with
    | some (.dict entries) => merged store (done.extend entries) rest
    | some v =>
      Action.invalid .combineData "data_sources"
        ("variable '" ++ name ++ "' holds " ++ v.typeName ++ ", not an object")
    | none => .error (.undefinedVariable name)
  | v :: _ =>
    Action.invalid .combineData "data_sources"
      ("expected a variable name or an object, got " ++ Json.compact v)

/-- Prints what a command wrote, and stores it with the exit code. -/
def report (code : Option Nat) (out err : List UInt8) : Attempt Outcome := do
  let out := Utf8.decode out
  let err := Utf8.decode err
  let code : Int := match code with
    | some n => n
    | none => -1
  let ended (text : String) : String :=
    String.ofList (Text.dropEndWhile (fun c => c == '\r' || c == '\n') text.toList)
  access (.print ("stdout: " ++ ended out))
  access (.print ("stderr: " ++ ended err))
  access (.assign "exit_code" (.int code))
  access (.assign "stdout" (.str out))
  access (.assign "stderr" (.str err))
  return .success Action.Kind.executeCommand.name
    ("Command executed with exit code " ++ toString code)

/-- Carries out a command. -/
def carryOutCommand (e : Engine) (spec : Command.Spec) (shell : Bool) (timeout : Option Float) :
    Attempt Outcome := do
  let seconds := timeout.getD e.config.commandTimeout
  match spec.invocation shell with
  | .error reason => settled (Action.invalid .executeCommand "command" reason)
  | .ok command =>
    match ← wait (.execute command seconds) with
    | .ended code out err => report code out err
    | .unstarted reason => throw (Cause.commandFailed spec.text reason)
    | .timedOut => throw (Cause.commandTimeout spec.text seconds)
    | .interrupted => throw Cause.cancelled

/-- Stores a response. -/
def store (r : Http.Request) (response : Http.Response) : Attempt Outcome := do
  let body ← settled (response.data r.expectsJson)
  access (.assign r.resultVariable body)
  if r.resultVariable ≠ Http.responseVariable then access (.assign Http.responseVariable body)
  access (.assign "status" (.int response.status))
  access (.assign "response_headers" (Http.headersValue response.headers))
  return .success Action.Kind.httpRequest.name
    ("HTTP request " ++ r.method ++ " " ++ r.url.toText ++ " status: " ++ toString response.status)

/-- Sends a request. -/
def carryOutRequest (e : Engine) (r : Http.Request) : Attempt Outcome := do
  if r.proxy.any (!Http.Request.isProxy ·) then
    settled (Action.invalid .httpRequest "proxy" "builder error")
  else if !r.isSendable then
    throw (Cause.httpTransport ("builder error for url (" ++ r.target.toText ++ ")"))
  else
    match ← wait (.send r (r.timeout.getD e.config.httpTimeout)) with
    | .answered response => store r response
    | .failed reason => throw (Cause.httpTransport reason)
    | .interrupted => throw Cause.cancelled

/-- Whether a loop makes another pass. A condition is resolved anew. -/
def anotherPass (e : Engine) (mode : LoopMode) (done : Nat) : Attempt Bool := do
  match mode with
  | .counted count => return done < count
  | .holding condition =>
    let store ← access .read
    let condition ← settled (Template.resolve store e.config.undefinedVariables condition)
    let store ← access .read
    settled (conditionHolds condition store)

/-- Asks for another pass of a loop of which so many are done. -/
def mayPass (e : Engine) (mode : LoopMode) (done : Nat) : Attempt Bool := do
  if ← access (.poll .pass) then throw Cause.cancelled
  e.anotherPass mode done

/-- The passes of a loop of which so many are done and so many more are allowed. Gives how many
there were, or the outcome of the step that failed. -/
def passes (e : Engine) (mode : LoopMode) (limit : Nat) (body : Process (Except Outcome Nat))
    (done : Nat) : Nat → Attempt (Except Outcome Nat)
  | 0 => do
    if ← e.mayPass mode done then throw (Cause.loopLimitExceeded limit)
    return .ok done
  | left + 1 => do
    if !(← e.mayPass mode done) then return .ok done
    if let .counted _ := mode then access (.assign "loop_index" (.int done))
    match ← ExceptT.lift body with
    | .error o => return .error o
    | .ok _ => passes e mode limit body (done + 1) left

/-- Carries out an action, given what the lists of steps in its fields do. -/
def carryOut (e : Engine) (lists : String → Process (Except Outcome Nat)) :
    Action → Attempt Outcome
  | .assign name v evaluated => do
    let v ← valueOf v evaluated
    access (.assign name v)
    return .success Action.Kind.setVar.name
      ("Variable '" ++ name ++ "' set to '" ++ v.display ++ "'")
  | .print message evaluated => do
    let v ← valueOf message evaluated
    access (.print v.display)
    return .success Action.Kind.printMsg.name "Printed msg"
  | .command spec shell timeout => e.carryOutCommand spec shell timeout
  | .evaluate expression => do
    let v ← valueOf (.str expression) true
    return .success Action.Kind.eval.name ("Expression result: " ++ v.display) (some v)
  | .choose condition => do
    let some condition := condition
      | throw (Cause.missingField Action.Kind.condition.name "condition")
    let store ← access .read
    let holds ← settled (conditionHolds condition store)
    match ← ExceptT.lift (lists (if holds then "if_true" else "if_false")) with
    | .error o => return o
    | .ok _ =>
      return .success Action.Kind.condition.name
        ("Condition result: " ++ if holds then "true" else "false")
  | .iterate mode limit => do
    let limit := limit.getD e.config.maxLoopIterations
    match ← e.passes mode limit (lists "loop_steps") 0 limit with
    | .error o => return o
    | .ok n =>
      return .success Action.Kind.loop.name ("Executed " ++ toString n ++ " iterations")
  | .pause seconds evaluated => do
    let x ← settled (Action.seconds (← valueOf seconds evaluated))
    if ← wait (.sleep x) then
      return .success Action.Kind.delay.name
        ("Delayed for " ++ Double.write .prose x ++ " seconds")
    else throw Cause.cancelled
  | .record trigger message => do
    access (.record trigger)
    return .success Action.Kind.trigger.name message
  | .request r => e.carryOutRequest r
  | .merge sources target => do
    let store ← access .read
    let entries ← settled (merged store [] sources)
    access (.assign target (.dict entries))
    return .success Action.Kind.combineData.name ("Combined data saved to " ++ target)

/-- Has a prepared step carried out. -/
def handle (e : Engine) (lists : String → Process (Except Outcome Nat)) (d : Descriptor)
    (s : Step) : Attempt Outcome :=
  match d.handler with
  | .recorder => return .success "noop" "ok" (some (.dict s.fields))
  | .builtin k => do e.carryOut lists (← settled (Action.read k s))

/-! ## Dispatch -/

/-- The outcome of a failure. -/
def failure (e : Engine) (action : Option String) (cause : Cause) : Outcome :=
  .failure action e.config.diagnosticLimit cause

/-- Dispatches a step, given what the lists of steps in its fields do. -/
def dispatchWith (e : Engine) (lists : String → Process (Except Outcome Nat)) (s : Step) :
    Process Outcome := do
  match ← (e.prepare s).run with
  | .error cause => return e.failure s.action? cause
  | .ok (d, s) =>
    let outcome := match ← (e.handle lists d s).run with
      | .ok o => o
      | .error cause => e.failure (some d.name) cause
    .ofAccess (.log ⟨d.name, outcome⟩)
    return outcome

mutual

/-- Dispatches a step given as data. What is no step does nothing. -/
def dispatchValue (e : Engine) : Value → Process Outcome
  | .dict fields => e.dispatchWith (runField e fields) ⟨fields⟩
  | _ => return ⟨.success, "", none, none, none, none⟩
termination_by structural v => v

/-- Runs the steps in a field, and counts them. -/
def runField (e : Engine) : List (String × Value) → String → Process (Except Outcome Nat)
  | [], _ => return .ok 0
  | (name, v) :: rest, field => if name = field then runList e v else runField e rest field
termination_by structural fields => fields

/-- Runs the steps in a list, and counts them. -/
def runList (e : Engine) : Value → Process (Except Outcome Nat)
  | .list items => runItems e 0 items
  | _ => return .ok 0
termination_by structural v => v

/-- Runs steps given as data one after the other, up to the first that fails, and counts them. -/
def runItems (e : Engine) (count : Nat) : List Value → Process (Except Outcome Nat)
  | [] => return .ok count
  | v :: vs => do
    let outcome ← dispatchValue e v
    if outcome.isError then return .error outcome else runItems e (count + 1) vs
termination_by structural items => items

end

/-- Dispatches a step. -/
def dispatch (e : Engine) (s : Step) : Process Outcome := e.dispatchValue s.toValue

/-- Runs steps one after the other, up to the first that fails, and counts them. -/
def runSteps (e : Engine) (ss : List Step) : Process (Except Outcome Nat) :=
  e.runItems 0 (ss.map Step.toValue)

end Engine

end Stepwise
