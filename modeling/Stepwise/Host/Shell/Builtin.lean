import Stepwise.Host.Shell.State

/-!
# Commands the shell carries out itself

Commands that need no other commands to be carried out. Some end the shell when they fail.

* `Shell.builtin?`: what such a command does, if there is one with that name.
-/

namespace Stepwise.Host.Shell

open Escape (encode)

/-- The command succeeds or fails. -/
def succeed (s : Shell) (success : Bool) : Shell := { s with status := if success then 0 else 1 }

/-- A fault about a word. -/
def about (what : String) (word : List Char) : List Char := what.toList ++ word

/-- What is said of a word that is no number. -/
def illegalNumber (word : List Char) : List Char := about "Illegal number: " word

/-! ## Signals -/

/-- The signals with names. -/
def signals : List (String × Nat) :=
  [("EXIT", 0), ("HUP", 1), ("INT", 2), ("QUIT", 3), ("ILL", 4), ("TRAP", 5), ("ABRT", 6),
   ("BUS", 7), ("FPE", 8), ("KILL", 9), ("USR1", 10), ("SEGV", 11), ("USR2", 12), ("PIPE", 13),
   ("ALRM", 14), ("TERM", 15), ("STKFLT", 16), ("CHLD", 17), ("CONT", 18), ("STOP", 19),
   ("TSTP", 20), ("TTIN", 21), ("TTOU", 22), ("URG", 23), ("XCPU", 24), ("XFSZ", 25),
   ("VTALRM", 26), ("PROF", 27), ("WINCH", 28), ("IO", 29), ("PWR", 30), ("SYS", 31)]

/-- The signal with a number or a name. -/
def signal? (word : List Char) : Option Nat :=
  match number? word with
  | some n => if n < 65 then some n else none
  | none => signals.lookup (String.ofList (word.map Char.toUpper))

/-- The name of a signal. -/
def signalName (n : Nat) : String :=
  match signals.find? (·.2 == n) with
  | some (name, _) => name
  | none => toString n

/-- The signals that end nothing. -/
def isHarmless (signal : Nat) : Bool := [0, 17, 18, 23, 28].contains signal

/-- Sends a signal to what a word names: the main shell or a job. -/
def sendTo (s : Shell) (signal : Nat) (target : List Char) : Shell :=
  match target, number? target with
  | '%' :: _, _ => s.complain 2 (about "No such job: " target)
  | _, none =>
    s.complain 2 (illegalNumber (if target.head? == some '-' then target.tail else target))
  | _, some n =>
    if n == ownNumber then
      if signal == 0 then s else { s with received := s.received ++ [signal] }
    else if s.jobs.any (·.number == n) then
      { s with jobs := s.jobs.map fun j =>
          if j.number == n && s.ticks < j.ends && !isHarmless signal then
            { j with ends := s.ticks, status := 128 + signal, signal := some signal, log := [] }
          else j }
    else s.complain 1 "No such process\n".toList

/-- How a signal is sent. -/
def killUsage : List Char :=
  "Usage: kill [-s sigspec | -signum | -sigspec] [pid | job]... or\nkill -l [exitstatus]".toList

/-- Sends a signal to some targets. -/
def send (s : Shell) (signal : Nat) (targets : List (List Char)) : Shell :=
  if targets.isEmpty then s.complain 2 killUsage
  else targets.foldl (fun s target => if s.status = 2 then s else s.sendTo signal target)
    { s with status := 0 }

/-- Sends a signal, or names one. -/
def kill (s : Shell) : List (List Char) → Shell
  | ['-', '-'] :: targets => s.send 15 targets
  | ['-', 'l'] :: [] =>
    let names := (signals.drop 1).map fun p => p.1 ++ "\n"
    (s.write 1 (encode ("0\n" ++ String.join names).toList)).succeed true
  | ['-', 'l'] :: word :: _ =>
    match number? word with
    | none => s.complain 2 (illegalNumber word)
    | some n =>
      let n := if 128 < n then n - 128 else n
      if 0 < n && n < 65 then (s.write 1 (encode (signalName n ++ "\n").toList)).succeed true
      else s.complain 2 (about "invalid signal number or exit status: " word)
  | ['-', 's'] :: [] => s.complain 2 "No arg for -s option".toList
  | ['-', 's'] :: word :: targets =>
    match signal? word with
    | some signal => s.send signal targets
    | none => s.complain 2 (about "invalid signal number or name: " word)
  | ('-' :: c :: cs) :: targets =>
    match signal? (c :: cs) with
    | some signal => s.send signal targets
    | none => s.complain 2 (about "Illegal option -" [c])
  | targets => s.send 15 targets

/-- What a trap is set with: an action for some signals, or none, which resets them. -/
def setTraps (s : Shell) (action? : Option (List Char)) : List (List Char) → Shell
  | [] => s.succeed true
  | word :: words =>
    match signal? word with
    | none => (s.write 2 (encode ("trap: ".toList ++ word ++ ": bad trap\n".toList))).succeed false
    | some n =>
      let name := signalName n
      let others := s.traps.filter (·.1 != name)
      let traps := match action? with
        | some action => others ++ [(name, action)]
        | none => others
      setTraps { s with traps } action? words

/-- A text in quotes as the shell would read it. -/
def quote (cs : List Char) : List Char :=
  '\'' :: cs.flatMap (fun c => if c == '\'' then "'\"'\"'".toList else [c]) ++ ['\'']

/-- Sets or shows what to do on signals. -/
def trap (s : Shell) (words : List (List Char)) : Shell :=
  let words := if words.head? == some ['-', '-'] then words.tail else words
  match words with
  | [] =>
    let line (p : String × Nat) : List Char :=
      match s.traps.lookup p.1 with
      | some action => "trap -- ".toList ++ quote action ++ [' '] ++ p.1.toList ++ ['\n']
      | none => []
    (s.write 1 (encode (signals.flatMap line))).succeed true
  | ('-' :: c :: _) :: _ => s.abort (about "Illegal option -" [c])
  | [word] => s.setTraps none [word]
  | ['-'] :: words => s.setTraps none words
  | action :: words =>
    if (number? action).isSome then s.setTraps none (action :: words)
    else s.setTraps (some action) words

/-! ## Output -/

/-- Writes to the output, which may be closed. -/
def put (s : Shell) (bytes : List UInt8) : Shell :=
  if s.sink 1 = .closed && !bytes.isEmpty then s.complain 1 (s.within ++ ": I/O error".toList)
  else s.write 1 bytes

/-- Writes its arguments, in which escapes are replaced. -/
def echo (s : Shell) (words : List (List Char)) : Shell :=
  let (words, ends) : List (List Char) × Bool := match words with
    | ['-', 'n'] :: rest => (rest, false)
    | _ => (words, true)
  let (bytes, whole) := Escape.decode false true (List.intercalate [' '] words)
  (s.succeed true).put (bytes ++ if ends && whole then [10] else [])

/-- Writes its arguments as a format says. -/
def printf (s : Shell) (words : List (List Char)) : Shell :=
  match words with
  | [] => s.complain 2 "usage: printf format [arg ...]".toList
  | ['-', '-'] :: words => if words.isEmpty then s.succeed true else go words
  | ('-' :: c :: _) :: _ => s.complain 2 (about "Illegal option -" [c])
  | words => go words
where
  /-- What is said of an argument. -/
  complaint : List Char × Printf.Reading → List Char
    | (a, .beyond) => a ++ ": Numerical result out of range".toList
    | (a, .partly) => a ++ ": not completely converted".toList
    | (a, _) => a ++ ": expected numeric value".toList
  /-- Writes arguments behind a format. -/
  go (words : List (List Char)) : Shell :=
    let r := Printf.print ⟨false, 53⟩ (words.headD []) words.tail
    let s := (s.succeed true).put r.out
    let s := r.faults.foldl (fun s fault => s.complain 1 (complaint fault)) s
    match r.unknown with
    | some c =>
      if c.letter == '\x00' then s.complain 2 "missing format character".toList
      else s.complain 2 ('%' :: c.spelled ++ ": invalid directive".toList)
    | none => s

/-! ## Input -/

/-- The characters of a line, each with whether a backslash stands before it, and what follows the
line, unless the input ends before the line does. -/
def lineOf (raw : Bool) : List Char → List (Char × Bool) × Option (List Char)
  | [] => ([], none)
  | '\n' :: rest => ([], some rest)
  | '\\' :: c :: rest =>
    if raw then
      let (line, rest) := lineOf raw (c :: rest)
      (('\\', false) :: line, rest)
    else
      let (line, rest) := lineOf raw rest
      (if c == '\n' then line else (c, true) :: line, rest)
  | c :: rest =>
    let (line, rest) := lineOf raw rest
    ((c, false) :: line, rest)
termination_by cs => cs.length

/-- Hands out the words of a line to variables; the last one takes the rest of the line. -/
def handOut (s : Shell) : List (List Char) → List (Char × Bool) → Shell
  | [], _ => s
  | name :: names, line =>
    let blank (p : Char × Bool) : Bool := !p.2 && s.separators.contains p.1 && Glyph.isBlank p.1
    let separates (p : Char × Bool) : Bool := !p.2 && s.separators.contains p.1
    let line := line.dropWhile blank
    if names.isEmpty then
      s.assign name (((line.reverse.dropWhile blank).reverse).map (·.1))
    else
      let word := line.takeWhile fun p => !separates p
      let rest := (line.drop word.length).dropWhile blank
      let rest := match rest with
        | p :: ps => if separates p then ps else rest
        | [] => []
      handOut (s.assign name (word.map (·.1))) names rest

/-- Reads a line into variables. -/
def read (s : Shell) : List (List Char) → Shell
  | ['-', 'r'] :: names => take true names
  | ['-', 'p'] :: _ :: names => take false names
  | ('-' :: c :: _) :: _ => s.complain 2 (about "Illegal option -" [c])
  | names => take false names
where
  /-- Reads a line. -/
  take (raw : Bool) (names : List (List Char)) : Shell :=
    match names.find? fun name => !isName name with
    | some name => s.complain 2 (name ++ ": bad variable name".toList)
    | none =>
      if names.isEmpty then s.complain 2 "arg count".toList
      else
        let (line, rest?) := lineOf raw (Utf8.decode s.input).toList
        let s := { s with input := encode (rest?.getD []) }
        (s.handOut names line).succeed rest?.isSome

/-! ## Variables -/

/-- The name and the value, if there is one, in a word. -/
def binding (word : List Char) : List Char × Option (List Char) :=
  let name := word.takeWhile (· != '=')
  (name, if name.length < word.length then some (word.drop (name.length + 1)) else none)

/-- Does something with the names in words, which may get values. -/
def declare (s : Shell) (mark : Shell → List Char → Shell) (words : List (List Char)) : Shell :=
  words.foldl
    (fun s word =>
      let (name, value?) := binding word
      if s.flow ≠ .onward then s
      else if !isName name then s.abort (name ++ ": bad variable name".toList)
      else
        let s := match value? with
          | some value => s.assign name value
          | none => s
        if s.flow ≠ .onward then s else mark s name)
    (s.succeed true)

/-- Hands over variables to programs, or shows which ones are. -/
def hand (s : Shell) (words : List (List Char)) : Shell :=
  declare s (fun s name => { s with exported := name :: s.exported })
    (words.filter (· != ['-', 'p']))

/-- Makes variables local to a function. -/
def makeLocal (s : Shell) (words : List (List Char)) : Shell :=
  match s.locals with
  | none => s.abort "not in a function".toList
  | some saved =>
    let s := { s with locals := some (s.saved (words.map fun w => (binding w).1) ++ saved) }
    s.declare (fun s _ => s) words

/-- Takes variables or functions away. -/
def unset (s : Shell) (words : List (List Char)) : Shell :=
  match words with
  | ['-', 'f'] :: names =>
    { s with functions := s.functions.filter fun p => !names.contains p.1 }.succeed true
  | _ =>
    let names := words.filter (· != ['-', 'v'])
    match names.find? fun name => !isName name || s.fixed.contains name with
    | some name =>
      if isName name then s.abort (name ++ ": is read only".toList)
      else s.abort (name ++ ": bad variable name".toList)
    | none =>
      { s with bindings := s.bindings.filter fun p => !names.contains p.1,
               exported := s.exported.filter fun name => !names.contains name }.succeed true

/-! ## Options and arguments -/

/-- The names of options, and their letters. -/
def optionNames : List (String × Char) :=
  [("errexit", 'e'), ("noglob", 'f'), ("ignoreeof", 'I'), ("interactive", 'i'), ("monitor", 'm'),
   ("noexec", 'n'), ("stdin", 's'), ("xtrace", 'x'), ("verbose", 'v'), ("vi", 'V'), ("emacs", 'E'),
   ("noclobber", 'C'), ("allexport", 'a'), ("notify", 'b'), ("nounset", 'u')]

/-- Sets an option or takes it back. -/
def setOption (s : Shell) (on : Bool) (letter : Char) : Shell :=
  let others := s.options.filter (· != letter)
  { s with options := if on then letter :: others else others }

/-- Reads options in front of words. Gives the words left, whether they are said to be the arguments
of the shell, and whether a text is to be carried out, or the option there is not. -/
def takeOptions (s : Shell) (text : Bool) :
    List (List Char) → Except (List Char) (Shell × List (List Char) × Bool × Bool)
  | ['-', '-'] :: words => .ok (s, words, true, text)
  | ['-', 'o'] :: name :: words | ['+', 'o'] :: name :: words =>
    match optionNames.lookup (String.ofList name) with
    | some letter => takeOptions (s.setOption true letter) text words
    | none => .error ("-o ".toList ++ name)
  | ('-' :: c :: cs) :: words =>
    match (c :: cs).find? fun c => c != 'c' && !optionNames.any (·.2 == c) with
    | some letter => .error ['-', letter]
    | none =>
      takeOptions ((c :: cs).foldl (fun s c => if c == 'c' then s else s.setOption true c) s)
        (text || (c :: cs).contains 'c') words
  | ('+' :: c :: cs) :: words =>
    takeOptions ((c :: cs).foldl (fun s c => s.setOption false c) s) text words
  | words => .ok (s, words, !words.isEmpty, text)

/-- Sets options and arguments. -/
def set (s : Shell) (words : List (List Char)) : Shell :=
  match s.takeOptions false words with
  | .error option => s.abort (about "Illegal option " option)
  | .ok (s, words, given, _) =>
    (if given then { s with arguments := s.arguments.take 1 ++ words } else s).succeed true

/-- Drops arguments. -/
def shift (s : Shell) (words : List (List Char)) : Shell :=
  let word := words.headD ['1']
  match number? word with
  | none => s.abort (illegalNumber word)
  | some n =>
    if s.arguments.length - 1 < n then s.abort "can't shift that many".toList
    else { s with arguments := s.arguments.take 1 ++ s.arguments.drop (1 + n) }.succeed true

/-! ## Flow -/

/-- Ends the shell or a function with a status. -/
def leave (s : Shell) (flow : Flow) : List (List Char) → Shell
  | [] => { s with flow }
  | word :: _ =>
    match number? word with
    | some n => { s with status := n, flow }
    | none => s.abort (illegalNumber word)

/-- Leaves loops. -/
def leaveLoops (s : Shell) (flow : Nat → Flow) (words : List (List Char)) : Shell :=
  let word := words.headD ['1']
  match (number? word).filter (0 < ·) with
  | none => s.abort (illegalNumber word)
  | some n => { s with status := 0, flow := if s.loops = 0 then s.flow else flow (min n s.loops) }

/-- Waits for jobs. -/
def wait (s : Shell) : List (List Char) → Shell
  | [] => { s.await s.jobs with jobs := [] }.succeed true
  | words =>
    words.foldl
      (fun s word =>
        match number? word with
        | none => s.complain 2 (illegalNumber word)
        | some n =>
          match s.jobs.find? (·.number == n) with
          | none => { s with status := 127 }
          | some j =>
            { (s.await [j]).mourn j.signal with
              jobs := s.jobs.filter (·.number != n), status := j.status })
      s

/-! ## Places -/

/-- Goes to another directory. -/
def cd (s : Shell) (words : List (List Char)) : Shell :=
  let (path, back) : List Char × Bool := match words with
    | [] => ([], false)
    | ['-'] :: _ => ((s.bindings.lookup "OLDPWD".toList).getD [], true)
    | path :: _ => (path, false)
  if path.isEmpty then s.succeed true
  else if Place.isDirectory s.directory path then
    let s' := { s.assign "OLDPWD".toList s.directory with
                directory := Place.resolve s.directory path }.succeed true
    if back then s'.put (encode (s'.directory ++ ['\n'])) else s'
  else s.complain 2 (about "can't cd to " path)

/-- Shows the directory. -/
def pwd (s : Shell) : Shell := (s.succeed true).put (encode (s.directory ++ ['\n']))

/-- Carries out a test. -/
def test (s : Shell) (words : List (List Char)) : Shell :=
  match Test.holds s.kind? words with
  | .ok b => s.succeed b
  | .error f => s.complain 2 f.message

/-- What a command does that the shell carries out itself, and that needs no others. -/
def builtin? (name : List Char) (words : List (List Char)) : Option (Shell → Shell) :=
  match String.ofList name with
  | ":" | "true" | "alias" | "unalias" | "hash" | "jobs" | "times" | "ulimit" =>
    some fun s => s.succeed true
  | "false" => some fun s => s.succeed false
  | "echo" => some fun s => s.echo words
  | "printf" => some fun s => s.printf words
  | "test" => some fun s => s.test words
  | "[" => some fun s =>
    if words.getLast? == some [']'] then s.test words.dropLast
    else s.complain 2 "missing ]".toList
  | "exit" => some fun s => s.leave .leave words
  | "return" => some fun s => s.leave .returning words
  | "kill" => some fun s => s.kill words
  | "trap" => some fun s => s.trap words
  | "read" => some fun s => s.read words
  | "wait" => some fun s => s.wait words
  | "export" => some fun s => s.hand words
  | "readonly" => some fun s => s.declare (fun s name => { s with fixed := name :: s.fixed }) words
  | "local" => some fun s => s.makeLocal words
  | "unset" => some fun s => s.unset words
  | "set" => some fun s => s.set words
  | "shift" => some fun s => s.shift words
  | "break" => some fun s => s.leaveLoops .breaking words
  | "continue" => some fun s => s.leaveLoops .continuing words
  | "cd" | "chdir" => some fun s => s.cd words
  | "pwd" => some fun s => s.pwd
  | "umask" => some fun s => (s.succeed true).put (encode "0022\n".toList)
  | "fg" | "bg" => some fun s => s.complain 2 "No current job".toList
  | _ => none

/-- The names of the commands that the shell carries out itself with others. -/
def directing : List String := [".", "command", "eval", "exec", "type"]

/-- The shell carries out a command itself. -/
def isOwn (name : List Char) : Bool :=
  (builtin? name []).isSome || directing.contains (String.ofList name)

/-- What is said of a name. -/
def described (s : Shell) (name : List Char) : Option String :=
  let n := String.ofList name
  if Command.reserved.contains n then some (n ++ " is a shell keyword")
  else if (s.functions.lookup name).isSome then some (n ++ " is a shell function")
  else if Command.specials.contains n then some (n ++ " is a special shell builtin")
  else if isOwn name then some (n ++ " is a shell builtin")
  else if programs.contains n then some (n ++ " is /usr/bin/" ++ n)
  else none

/-- Says what names are. -/
def describe (s : Shell) (words : List (List Char)) : Shell :=
  words.foldl
    (fun s word =>
      match s.described word with
      | some text => s.put (encode (text ++ "\n").toList)
      | none => { s.put (encode (word ++ ": not found\n".toList)) with status := 127 })
    (s.succeed true)

/-- Says how names are carried out. -/
def locate (s : Shell) (words : List (List Char)) : Shell :=
  words.foldl
    (fun s word =>
      let n := String.ofList word
      if (s.described word).isNone then { s with status := 127 }
      else if programs.contains n && !isOwn word && (s.functions.lookup word).isNone then
        s.put (encode ("/usr/bin/" ++ n ++ "\n").toList)
      else s.put (encode (word ++ ['\n'])))
    (s.succeed true)

end Stepwise.Host.Shell
