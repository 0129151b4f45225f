import Stepwise.Command.Spec
import Stepwise.Host.Shell.Run

/-!
# The host

Commands are carried out by a host of its own, which has a shell and a few programs. A command that
cannot be started says why.

* `Host.execute`: what comes of a command.
-/

namespace Stepwise.Host

/-- A name leads to what is no program. -/
def isBarred (name : List Char) : Bool :=
  name == ['.'] || name == ['.', '.'] ||
    (name.contains '/' && (Place.isDirectory ['/'] name || Place.isDevice name))

/-- Why a program cannot be started that is there or not. -/
def refusal? (c : Command.Invocation) : Option String :=
  if c.words.any (·.contains '\x00') then some "nul byte found in provided data"
  else if c.words.any (131072 ≤ ·.utf8ByteSize) then some "Argument list too long (os error 7)"
  else if isBarred c.program.toList then some "Permission denied (os error 13)"
  else none

/-- Carries out a command, unless it cannot be started. -/
def execute (c : Command.Invocation) : Except String Report :=
  match refusal? c with
  | some reason => .error reason
  | none =>
    match run? c.program.toList (c.arguments.map String.toList) with
    | some report => .ok report
    | none => .error "No such file or directory (os error 2)"

end Stepwise.Host
