import Stepwise.Host.Basic
import Stepwise.Run.Process

/-!
# Runs in time

Time passes in milliseconds, and only while a process waits: it then jumps to the moment at which
the wait is over. Commands are carried out by the host, and no server is ever reached. A run can be
cancelled at a given moment, and a listener can receive its output meanwhile; the listener gets a
turn whenever the process waits, and may stop listening at a deadline.

* `Wait.ending`: when a wait is over, and what it gives then.
* `Timeline.world`: the world in which time passes.
-/

namespace Stepwise

/-- A span in milliseconds, rounded up. A span past all clocks is cut to thirty years. -/
def Span.ticks (s : Span) : Nat :=
  if s.seconds < Nat.pow 2 63 then (s.total + 999999) / 1000000 else 30 * 365 * 86400 * 1000

namespace Wait

/-- A number of seconds in milliseconds. -/
def ticks (seconds : Float) : Nat := (Span.ofSeconds seconds).ticks

/-- When a wait that begins now is over, unless it is no wait at all, and what it gives. -/
def ending (now : Nat) : (w : Wait) → Option Nat × w.Answer
  | sleep seconds =>
    (if ticks seconds = 0 then none else some (now + ticks seconds), true)
  | execute command timeout =>
    match Host.execute command with
    | .error reason => (none, .unstarted reason)
    | .ok report =>
      if ticks timeout ≤ report.ticks then (some (now + ticks timeout), .timedOut)
      else (some (now + report.ticks), .ended report.code report.out report.err)
  | send r _ => (some now, .failed ("error sending request for url (" ++ r.target.toText ++ ")"))
  | turn => (some now, ())

/-- What a wait gives when the run is cancelled meanwhile. -/
def interrupted : (w : Wait) → w.Answer
  | sleep _ => false
  | execute .. => Execution.interrupted
  | send .. => Delivery.interrupted
  | turn => ()

/-- The process only lets others go first. -/
def isTurn : Wait → Bool
  | turn => true
  | _ => false

end Wait

/-- A listener who receives the lines of a run as long as it listens. -/
structure Listener where
  /-- Where it stands in the output. -/
  position : Nat
  /-- When it stops listening. -/
  deadline : Nat
  listening : Bool := true
  /-- The lines it received, the last one first. -/
  received : List String := []

namespace Listener

/-- Receives all there is, and then stops listening if it is time. -/
def turn (l : Listener) (o : Output) (now : Nat) : Listener :=
  if l.listening then
    let (entries, position) := o.takeAll l.position
    { l with position, received := (Output.linesOf entries).reverse ++ l.received,
             listening := now < l.deadline }
  else l

/-- Time passes, and it stops listening if its deadline goes by. -/
def pass (l : Listener) (now : Nat) : Listener :=
  { l with listening := l.listening && now ≤ l.deadline }

/-- There is something to receive. -/
def isBehind (l : Listener) (o : Output) : Bool := l.listening && l.position < o.sent

end Listener

/-- The time of a run. -/
structure Timeline where
  now : Nat := 0
  /-- When the run is cancelled. -/
  cancelAt : Option Nat := none
  listener : Option Listener := none
  /-- The listener has had its turn in this round. Rounds alternate between the listener going first
  and the process going first. -/
  ahead : Bool := true

namespace Timeline

/-- Gives the listener a turn. -/
def listen (t : Timeline) (o : Output) : Timeline :=
  { t with listener := t.listener.map (·.turn o t.now) }

/-- The next round begins. -/
def nextRound (t : Timeline) (o : Output) : Timeline :=
  if t.ahead then { t with ahead := false } else { t.listen o with ahead := true }

/-- The listener receives what was printed, which takes another round, and then time passes. -/
def jump (t : Timeline) (o : Output) (now : Nat) : Timeline :=
  let behind := t.listener.any (·.isBehind o)
  let listener := (t.listen o).listener.map (·.pass now)
  nextRound { t with now, listener, ahead := t.ahead != behind } o

/-- The run is cancelled if it is time. -/
def cancelled (t : Timeline) (r : Run) : Run :=
  if t.cancelAt.any (· ≤ t.now) then r.cancel else r

/-- When a wait until a moment is interrupted, if it is. -/
def interruption (t : Timeline) (r : Run) (moment : Nat) : Option Nat :=
  if r.cancelled then some t.now else t.cancelAt.filter (· < moment)

/-- The world in which time passes. -/
def world : World Timeline where
  await w r t :=
    match w.ending t.now with
    | (none, x) => (x, r, t)
    | (some moment, x) =>
      if w.isTurn then
        let t := t.nextRound r.output
        (x, t.cancelled r, t)
      else
        match t.interruption r moment with
        | some c => (w.interrupted, r.cancel, t.jump r.output (max c t.now))
        | none => (x, r, t.jump r.output moment)

/-- The lines the listener received so far, which are taken from it. -/
def taken (t : Timeline) : List String × Timeline :=
  match t.listener with
  | some l => (l.received.reverse, { t with listener := some { l with received := [] } })
  | none => ([], t)

/-- The lines the listener received, once the process has ended. -/
def heard (t : Timeline) (o : Output) : List String := (t.listen o).taken.1

end Timeline

end Stepwise
