import Stepwise.Config
import Stepwise.Double.Read
import Stepwise.Host.Place
import Stepwise.Host.Printf

/-!
# Programs

The programs of the host besides its shell. A program reads its arguments and its input, writes to
two outputs, takes time, and ends with a code.

* `Program.run?`: what a program does, if there is one with that name.
-/

namespace Stepwise.Host

/-- What a program did. -/
structure Report where
  /-- The code it ended with, unless a signal ended it. -/
  code : Option Nat := some 0
  out : List UInt8 := []
  err : List UInt8 := []
  /-- How many milliseconds it took. -/
  ticks : Nat := 0

namespace Program

open Escape (encode)

/-- A program that fails with a message, in front of which its name stands. -/
def failed (name : String) (code : Nat) (message : String) : Report :=
  { code := some code, err := Utf8.encode (name ++ ": " ++ message ++ "\n") }

/-- A message with a word on where to read more. -/
def advised (name message : String) : String :=
  message ++ "\nTry '" ++ name ++ " --help' for more information."

/-- Whether a word is an option of `echo`. -/
def isEchoOption : List Char → Bool
  | '-' :: c :: rest => (c :: rest).all fun c => c == 'n' || c == 'e' || c == 'E'
  | _ => false

/-- Writes its arguments. -/
def echo (arguments : List (List Char)) : Report :=
  let options := arguments.takeWhile isEchoOption
  let words := arguments.drop options.length
  let letters := options.flatten.filter (· != '-')
  let decodes := ((letters.filter (· != 'n')).getLast?) == some 'e'
  let line := List.intercalate [' '] words
  let (bytes, whole) := if decodes then Escape.decode true true line else (encode line, true)
  { out := bytes ++ if letters.contains 'n' || !whole then [] else [10] }

/-- Writes its arguments as a format says. -/
def printf (name : String) (arguments : List (List Char)) : Report :=
  match if arguments.head? == some ['-', '-'] then arguments.tail else arguments with
  | [] => failed name 1 (advised name "missing operand")
  | format :: arguments =>
    let s := Printf.print ⟨true, 64⟩ format arguments
    let complaint : List Char × Printf.Reading → String
      | (a, .partly) => "'" ++ String.ofList a ++ "': value not completely converted"
      | (a, .beyond) => "'" ++ String.ofList a ++ "': Numerical result out of range"
      | (a, _) => "'" ++ String.ofList a ++ "': expected a numeric value"
    let faults := s.faults.map complaint ++ (s.unknown.map fun c =>
      "%" ++ String.ofList c.spelled ++ ": invalid conversion specification").toList
    let excess := match s.arguments with
      | a :: _ =>
        if s.stopped then []
        else ["warning: ignoring excess arguments, starting with '" ++ String.ofList a ++ "'"]
      | [] => []
    let lines := (faults ++ excess).map fun text => name ++ ": " ++ text ++ "\n"
    { code := some (if faults.isEmpty then 0 else 1), out := s.out,
      err := Utf8.encode (String.join lines) }

/-- Puts a number before every line of a text. -/
def numbered (bytes : List UInt8) : List UInt8 :=
  go (bytes.length + 1) 1 bytes
where
  /-- Puts numbers before lines, in at most so many steps. -/
  go : Nat → Nat → List UInt8 → List UInt8
    | 0, _, _ | _, _, [] => []
    | n + 1, k, bs =>
      let line := bs.takeWhile (· != 10)
      let ended := (bs.drop line.length).take 1
      let digits := (toString k).toList
      encode (List.replicate (6 - digits.length) ' ' ++ digits ++ ['\t']) ++ line ++ ended ++
        go n (k + 1) (bs.drop (line.length + 1))

/-- Writes files one after the other. A dash is the input. -/
def cat (name : String) (content? : List Char → Option (List UInt8))
    (isDirectory : List Char → Bool) (input : List UInt8) (arguments : List (List Char)) : Report :=
  let isOption : List Char → Bool
    | '-' :: _ :: _ => true
    | _ => false
  let options := (arguments.filter isOption).flatMap List.tail
  let names := arguments.filter fun a => !isOption a
  match options.find? fun c => c != 'n' && c != 'u' with
  | some c => failed name 1 (advised name ("invalid option -- '" ++ String.singleton c ++ "'"))
  | none =>
    let r := (if names.isEmpty then [['-']] else names).foldl
      (fun r path =>
        let missing (reason : String) : Report :=
          { r with code := some 1,
                   err := r.err ++ (failed name 1 (String.ofList path ++ ": " ++ reason)).err }
        if path == ['-'] || path == "/dev/stdin".toList then { r with out := r.out ++ input }
        else if isDirectory path then missing "Is a directory"
        else match content? path with
          | some bytes => { r with out := r.out ++ bytes }
          | none => missing "No such file or directory")
      ({} : Report)
    if options.contains 'n' then { r with out := numbered r.out } else r

/-- The milliseconds of a span as `sleep` reads it: a number and perhaps a unit. -/
def span? (cs : List Char) : Option Nat :=
  let (cs, unit) : List Char × Float := match cs.reverse with
    | 's' :: rest => (rest.reverse, 1)
    | 'm' :: rest => (rest.reverse, 60)
    | 'h' :: rest => (rest.reverse, 3600)
    | 'd' :: rest => (rest.reverse, 86400)
    | _ => (cs, 1)
  (Double.read (String.ofList cs)).bind fun x =>
    if 0 ≤ x then some (((Span.ofSeconds (x * unit)).total + 999999) / 1000000) else none

/-- Lets time pass. -/
def sleep (name : String) : List (List Char) → Report
  | [] => failed name 1 (advised name "missing operand")
  | ('-' :: c :: _) :: _ =>
    failed name 1 (advised name ("invalid option -- '" ++ String.singleton c ++ "'"))
  | spans =>
    match spans.find? fun cs => (span? cs).isNone with
    | some cs =>
      failed name 1 (advised name ("invalid time interval '" ++ String.ofList cs ++ "'"))
    | none => { ticks := (spans.filterMap span?).foldl (· + ·) 0 }

/-- Becomes another user, of whom there are none. -/
def su (arguments : List (List Char)) : Report :=
  failed "su" 1 ("user " ++ String.ofList (arguments.headD "root".toList) ++
    " does not exist or the user entry does not contain all the required fields")

/-- The name of a program without the directories where programs stand. -/
def baseName (name : List Char) : List Char :=
  let dirs := ["/bin/", "/usr/bin/"]
  match dirs.find? fun dir => dir.toList.isPrefixOf name with
  | some dir => name.drop dir.length
  | none => name

/-- What a program does with the files there are, if there is one with that name. -/
def run? (content? : List Char → Option (List UInt8)) (isDirectory : List Char → Bool)
    (name : List Char) (arguments : List (List Char)) (input : List UInt8) : Option Report :=
  let called := String.ofList name
  match String.ofList (baseName name) with
  | "echo" => some (echo arguments)
  | "printf" => some (printf called arguments)
  | "cat" => some (cat called content? isDirectory input arguments)
  | "sleep" => some (sleep called arguments)
  | "true" => some {}
  | "false" => some { code := some 1 }
  | "su" => some (su arguments)
  | _ => none

end Program

end Stepwise.Host
