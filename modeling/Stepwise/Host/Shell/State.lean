import Stepwise.Host.Place
import Stepwise.Host.Program
import Stepwise.Host.Shell.Command
import Stepwise.Host.Shell.Glyph
import Stepwise.Host.Shell.Test

/-!
# The state of a shell

A shell has variables, arguments, functions, files, an input, and descriptors that lead to sinks.
What is written to one of the two outputs, or to a pipe, is kept in a log. Commands that are not
waited for are jobs; what they write is added to the log when they are waited for.

* `Shell.write`: writes to a descriptor.
* `Shell.complain`: reports a fault.
* `Shell.contained`: takes over what a shell of its own did.
-/

namespace Stepwise.Host

/-- One of the two outputs. -/
inductive Channel where
  | out
  | err
deriving DecidableEq

namespace Shell

/-- Where what is written goes. -/
inductive Sink where
  | channel (c : Channel)
  | pipe (n : Nat)
  | file (name : List Char)
  | nowhere
  | closed
deriving DecidableEq

/-- How a shell goes on. -/
inductive Flow where
  | onward
  /-- It ends with its status. -/
  | leave
  /-- It leaves a function. -/
  | returning
  | killed (signal : Nat)
  /-- It leaves so many loops. -/
  | breaking (loops : Nat)
  /-- It begins the next pass of a loop so many loops further out. -/
  | continuing (loops : Nat)
  /-- It goes on for ever. -/
  | endless
deriving DecidableEq

/-- What was written, the last piece first. -/
abbrev Log := List (Sink × List UInt8)

/-- A command that is not waited for, when it ends, and what comes of it. -/
structure Job where
  number : Nat
  ends : Nat
  status : Nat
  signal : Option Nat := none
  log : Log

/-- A function: the line where it is defined, and what it does. -/
structure Function where
  line : Nat
  body : Command

end Shell

/-- A shell. -/
structure Shell where
  arguments : List (List Char) := []
  bindings : List (List Char × List Char) := []
  /-- The variables that are handed over to programs. -/
  exported : List (List Char) := []
  /-- The variables that keep their values. -/
  fixed : List (List Char) := []
  functions : List (List Char × Shell.Function) := []
  /-- What to do on a signal, or on leaving. -/
  traps : List (String × List Char) := []
  /-- The letters of the options that are set. -/
  options : List Char := []
  /-- The values that variables had before the function that is carried out. -/
  locals : Option (List (List Char × Option (List Char))) := none
  directory : List Char := ['/']
  files : List (List Char × List UInt8) := []
  input : List UInt8 := []
  sinks : List (Nat × Shell.Sink) := [(1, .channel .out), (2, .channel .err)]
  log : Shell.Log := []
  status : Nat := 0
  ticks : Nat := 0
  flow : Shell.Flow := .onward
  jobs : List Shell.Job := []
  /-- Jobs of shells that it had for itself. -/
  orphans : List Shell.Job := []
  /-- The number of the last job. -/
  latest : Option Nat := none
  /-- The signals that the main shell has received. -/
  received : List Nat := []
  /-- How deep it is in shells of their own. -/
  nesting : Nat := 0
  /-- How many loops it is in. -/
  loops : Nat := 0
  /-- How many pipes it has opened. -/
  pipes : Nat := 0
  /-- A failure does not end it here. -/
  guarded : Bool := false
  /-- The status of the last command whose output was inserted into a word. -/
  inserted : Option Nat := none
  /-- The command of its own that it carries out. -/
  within : List Char := []
  /-- The line it has reached, and how many lines stand before the function it is in. -/
  line : Nat := 1
  before : Nat := 0

namespace Shell

/-- The shell goes on for ever. -/
def forever (s : Shell) : Shell := { s with flow := .endless }

/-! ## Output -/

/-- Where a descriptor leads. -/
def sink (s : Shell) (descriptor : Nat) : Sink := (s.sinks.lookup descriptor).getD .closed

/-- Has a descriptor lead elsewhere. -/
def lead (s : Shell) (descriptor : Nat) (sink : Sink) : Shell :=
  { s with sinks := (descriptor, sink) :: s.sinks.filter (·.1 != descriptor) }

/-- Replaces the content of a file that is named in full. -/
def store (s : Shell) (name : List Char) (bytes : List UInt8) : Shell :=
  { s with files := (name, bytes) :: s.files.filter (·.1 != name) }

/-- Writes bytes to a sink. -/
def writeTo (s : Shell) (k : Sink) (bytes : List UInt8) : Shell :=
  if bytes.isEmpty then s
  else match k with
    | .file name => s.store name ((s.files.lookup name).getD [] ++ bytes)
    | .nowhere | .closed => s
    | k => { s with log := (k, bytes) :: s.log }

/-- Writes bytes to a descriptor. -/
def write (s : Shell) (descriptor : Nat) (bytes : List UInt8) : Shell :=
  s.writeTo (s.sink descriptor) bytes

/-- The bytes that went to a sink, oldest first. -/
def Log.bytes (log : Log) (k : Sink) : List UInt8 :=
  ((log.filter fun p => p.1 == k).map (·.2)).reverse.flatten

/-- The name by which a shell is known. -/
def name (s : Shell) : List Char := s.arguments.headD "sh".toList

/-- Reports a fault and fails with a status. -/
def complain (s : Shell) (status : Nat) (message : List Char) : Shell :=
  let within := if s.within.isEmpty then [] else s.within ++ ": ".toList
  let text := s.name ++ ": ".toList ++ (toString s.line).toList ++ ": ".toList ++ within ++
    message ++ ['\n']
  { s.write 2 (Escape.encode text) with status }

/-- Reports a fault that ends the shell. -/
def abort (s : Shell) (message : List Char) : Shell :=
  { s.complain 2 message with flow := .leave }

/-- Does something under a name. -/
def under (s : Shell) (name : List Char) (f : Shell → Shell) : Shell :=
  { f { s with within := name } with within := s.within }

/-! ## Variables -/

/-- The number by which the system knows the shell. -/
def ownNumber : Nat := 4711

/-- A number in decimal digits. -/
def digits (n : Nat) : List Char := (toString n).toList

/-- The number that a word is, up to what fits into 32 bits with a sign. -/
def number? (word : List Char) : Option Nat :=
  if !word.isEmpty && word.all Char.isDigit then
    let n := word.foldl (fun n c => 10 * n + (c.toNat - '0'.toNat)) 0
    if n < 2147483648 then some n else none
  else none

/-- The characters that separate fields. -/
def separators (s : Shell) : List Char := (s.bindings.lookup "IFS".toList).getD " \t\n".toList

/-- The value of a parameter. -/
def parameter? (s : Shell) (name : List Char) : Option (List Char) :=
  match name with
  | ['?'] => some (digits s.status)
  | ['$'] => some (digits ownNumber)
  | ['#'] => some (digits (s.arguments.length - 1))
  | ['@'] => some (List.intercalate [' '] s.arguments.tail)
  | ['*'] => some (List.intercalate (s.separators.take 1) s.arguments.tail)
  | ['-'] => some ("ubaCEVvxsnmiIfe".toList.filter s.options.contains)
  | ['!'] => s.latest.map digits
  | c :: _ =>
    if c.isDigit then (number? name).bind fun n => s.arguments[n]? else s.bindings.lookup name
  | [] => none

/-- How many characters a value may have before the shell is taken to go on for ever. -/
def room : Nat := 1000000

/-- Sets a variable. -/
def assign (s : Shell) (name value : List Char) : Shell :=
  if s.fixed.contains name then s.abort (name ++ ": is read only".toList)
  else if room < value.length then s.forever
  else
    let exported := if s.options.contains 'a' then name :: s.exported else s.exported
    { s with bindings := (name, value) :: s.bindings.filter (·.1 != name), exported }

/-- Gives variables the values back that they had. -/
def restore (s : Shell) (saved : List (List Char × Option (List Char))) : Shell :=
  saved.foldl
    (fun s (name, value?) =>
      let others := s.bindings.filter (·.1 != name)
      { s with bindings := match value? with
                | some value => (name, value) :: others
                | none => others })
    s

/-- The values that variables have. -/
def saved (s : Shell) (names : List (List Char)) : List (List Char × Option (List Char)) :=
  names.map fun name => (name, s.bindings.lookup name)

/-! ## Files -/

/-- The programs that are there, besides the shell. -/
def programs : List String := ["sh", "echo", "printf", "cat", "sleep", "true", "false", "su"]

/-- The full name of the file that a path leads to. -/
def full (s : Shell) (path : List Char) : List Char := Place.resolve s.directory path

/-- What a path leads to. -/
def kind? (s : Shell) (path : List Char) : Option Test.Kind :=
  let base := Program.baseName path
  if Place.isDirectory s.directory path then some .directory
  else if Place.isDevice path then some .device
  else if base.length < path.length && programs.contains (String.ofList base) then some .program
  else (s.files.lookup (s.full path)).map fun bytes => .file bytes.length

/-- The content of what a path leads to. -/
def content? (s : Shell) (path : List Char) : Option (List UInt8) :=
  match String.ofList path with
  | "/dev/null" => some []
  | "/dev/stdin" | "/dev/fd/0" => some s.input
  | _ => s.files.lookup (s.full path)

/-- Opens a file to write to it, or says why this cannot be done. -/
def opened (s : Shell) (path : List Char) : Except String Sink :=
  match String.ofList path with
  | "/dev/null" => .ok .nowhere
  | "/dev/stdout" | "/dev/fd/1" => .ok (s.sink 1)
  | "/dev/stderr" | "/dev/fd/2" => .ok (s.sink 2)
  | "/dev/tty" => .error "No such device or address"
  | _ =>
    if Place.isDirectory s.directory path then .error "Is a directory"
    else if path.isEmpty || !Place.isDirectory s.directory (Place.parent path) then
      .error "Directory nonexistent"
    else .ok (.file (s.full path))

/-! ## Shells in shells -/

/-- What is said of a shell that a signal ended. -/
def obituary (signal : Nat) : String :=
  match signal with
  | 1 => "Hangup\n"
  | 3 => "Quit\n"
  | 6 => "Aborted\n"
  | 9 => "Killed\n"
  | 10 => "User defined signal 1\n"
  | 11 => "Segmentation fault\n"
  | 12 => "User defined signal 2\n"
  | 14 => "Alarm clock\n"
  | 15 => "Terminated\n"
  | _ => ""

/-- Says that a signal ended something. -/
def mourn (s : Shell) (signal? : Option Nat) : Shell :=
  match signal? with
  | some signal => s.write 2 (Escape.encode (obituary signal).toList)
  | none => s

/-- Takes over what a shell of its own did. -/
def contained (s inner : Shell) : Shell :=
  { s with
    status := inner.status % 256, flow := if inner.flow = .endless then .endless else s.flow,
    ticks := inner.ticks, input := inner.input, files := inner.files, log := inner.log,
    pipes := inner.pipes, orphans := inner.orphans ++ inner.jobs, received := inner.received }

/-- Waits for jobs. -/
def await (s : Shell) (js : List Job) : Shell :=
  js.foldl (fun s j => { s with ticks := max s.ticks j.ends, log := j.log ++ s.log }) s

/-- Waits for all jobs. -/
def awaitAll (s : Shell) : Shell :=
  { s.await (s.jobs ++ s.orphans) with jobs := [], orphans := [] }

/-- The report of a shell that has ended. What it started keeps its outputs open. -/
def report (s : Shell) : Report :=
  let s := s.awaitAll
  { code := match s.flow with
      | .killed _ => none
      | _ => some (s.status % 256),
    out := s.log.bytes (.channel .out),
    err := s.log.bytes (.channel .err),
    ticks := if s.flow = .endless then Nat.pow 2 64 else s.ticks }

end Shell

end Stepwise.Host
