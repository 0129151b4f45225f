import Stepwise.Run.Output
import Stepwise.Status

/-!
# Following the output of a run

A consumer follows the output of a run until the run has ended or it is time to stop. It asks for
the next line, then whether the run has ended, and then whether it is time, over and over, so a line
goes before the end and the end before the time. Once it knows that the run has ended, it takes what
is left. Each question is answered at one moment, and anything may happen between two of them.

* `Flush.step`: the next question, and what follows from its answer.
-/

namespace Stepwise

/-- What a consumer who follows the output of a run asks next. -/
inductive Flush.Stage where
  /-- For the next line. -/
  | receiving
  /-- Whether the run has ended. -/
  | asking
  /-- Whether it is time to stop. -/
  | timing
  /-- For what is left, after so many lines of it. -/
  | draining (count : Nat)
  /-- Nothing: it gave the number of lines that were delivered, and whether the run has ended. -/
  | returned (delivered : Nat) (ended : Bool)
deriving DecidableEq

/-- A consumer who follows the output of a run. -/
structure Flush where
  /-- Where it stands in the output. -/
  position : Nat
  stage : Flush.Stage := .receiving
  /-- How many lines were delivered before it knew that the run has ended. -/
  delivered : Nat := 0
  /-- The lines that were delivered. -/
  consumed : List String := []
  /-- All it received, which it reports: the lines and the gaps. -/
  received : List Received := []

namespace Flush

/-- It begins behind all that is printed. -/
def call (o : Output) : Flush := { position := o.subscribe }

/-- The next entry it can receive, if there is one, and its position then. -/
def next (f : Flush) (o : Output) : Option (Received × Nat) :=
  match o.take f.position 1 with
  | (e :: _, position) => some (e, position)
  | ([], _) => none

/-- It receives an entry. -/
def receive (f : Flush) (e : Received) (position : Nat) : Flush :=
  { f with position, received := f.received ++ [e] }

/-- It delivers a line. -/
def deliver (f : Flush) (line : String) : Flush := { f with consumed := f.consumed ++ [line] }

/-- It asks its next question. It is told the output and the status of the run at this moment, and
whether it is time to stop. -/
def step (f : Flush) (o : Output) (status : Status) (late : Bool) : Flush :=
  match f.stage with
  | .receiving =>
    match f.next o with
    | some (.line text, position) =>
      { (f.receive (.line text) position).deliver text with delivered := f.delivered + 1 }
    | some (.lagged skipped, position) => f.receive (.lagged skipped) position
    | none => { f with stage := .asking }
  | .asking => { f with stage := if status.isTerminal then .draining 0 else .timing }
  | .timing => { f with stage := if late then .returned f.delivered false else .receiving }
  | .draining count =>
    match f.next o with
    | some (.line text, position) =>
      { (f.receive (.line text) position).deliver text with stage := .draining (count + 1) }
    | some (.lagged skipped, position) => f.receive (.lagged skipped) position
    | none => { f with stage := .returned (f.delivered + count) true }
  | .returned .. => f

end Flush

end Stepwise
