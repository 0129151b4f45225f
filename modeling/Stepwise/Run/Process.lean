import Stepwise.Command.Spec
import Stepwise.Http.Request
import Stepwise.Run.State

/-!
# Processes

A process is what a run does, cut at every point where something else can happen: it has ended, it
works on the state of its run, or it waits for something outside, which is a time that passes, a
command, an exchange with a server, or its turn. Nothing is said here about how long a wait takes
and what comes of it; that is up to a `World`.

* `Process.bind`: one process after another.
* `Process.run`: a process carried out in a world.
-/

namespace Stepwise

/-- What comes of a command. -/
inductive Execution where
  /-- It ended with a code, unless a signal ended it, and wrote to its two outputs. -/
  | ended (code : Option Nat) (out err : List UInt8)
  /-- It could not be started. -/
  | unstarted (reason : String)
  | timedOut
  | interrupted

/-- What comes of a request. -/
inductive Delivery where
  | answered (r : Http.Response)
  | failed (reason : String)
  | interrupted

/-- What a process waits for. -/
inductive Wait where
  | sleep (seconds : Float)
  | execute (command : Command.Invocation) (timeout : Float)
  | send (r : Http.Request) (timeout : Float)
  /-- Its next turn. -/
  | turn

/-- What a wait gives. A sleep tells whether it lasted, and was not interrupted. -/
@[reducible] def Wait.Answer : Wait → Type
  | sleep _ => Bool
  | execute .. => Execution
  | send .. => Delivery
  | turn => Unit

/-- What a run does until it gives a value. -/
inductive Process (α : Type) : Type where
  | done (a : α)
  | access (c : Run.Access) (next : c.Answer → Process α)
  | wait (w : Wait) (next : w.Answer → Process α)

namespace Process

variable {α β σ : Type}

/-- One process, and then another that depends on what the first gave. -/
def bind (p : Process α) (f : α → Process β) : Process β :=
  match p with
  | done a => f a
  | access c next => access c fun x => (next x).bind f
  | wait w next => wait w fun x => (next x).bind f

instance : Monad Process where
  pure := done
  bind := bind

/-- A single access. -/
def ofAccess (c : Run.Access) : Process c.Answer := access c done

/-- A single wait. -/
def ofWait (w : Wait) : Process w.Answer := wait w done

end Process

/-- Everything outside a process: what happens to its run before an access, and what comes of a
wait. -/
structure World (σ : Type) where
  meanwhile : Run → σ → Run × σ := fun r s => (r, s)
  await : (w : Wait) → Run → σ → w.Answer × Run × σ

namespace Process

/-- Carries out a process in a world. -/
def run {α σ : Type} (world : World σ) : Process α → Run → σ → α × Run × σ
  | done a, r, s => (a, r, s)
  | access c next, r, s =>
    let (r, s) := world.meanwhile r s
    let (x, r) := c.perform r
    run world (next x) r s
  | wait w next, r, s =>
    let (x, r, s) := world.await w r s
    run world (next x) r s

theorem run_bind {α β σ : Type} (world : World σ) (p : Process α) (f : α → Process β) (r : Run)
    (s : σ) :
    (p.bind f).run world r s =
      let (a, r, s) := p.run world r s
      (f a).run world r s := by
  induction p generalizing r s with
  | done a => rfl
  | access c next ih => simp only [bind, run, ih]
  | wait w next ih => simp only [bind, run, ih]

end Process

end Stepwise
