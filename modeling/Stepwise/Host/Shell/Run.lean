import Stepwise.Host.Shell.Arithmetic
import Stepwise.Host.Shell.Builtin

/-!
# Carrying out commands of the shell

Words are replaced by fields, redirections are set up, and commands are carried out by the shell
itself, as functions, or by programs. Every function takes a bound on how deep commands and passes
of loops may nest; a shell that goes beyond it goes on for ever.

* `Shell.runScript`: carries out a text line by line.
* `Host.run?`: what a program does, be it the shell or another one.
-/

namespace Stepwise.Host

namespace Shell

open Escape (encode)

/-- The shell after a pass of a loop, and whether there may be another one. -/
def afterPass (s : Shell) : Shell × Bool :=
  match s.flow with
  | .onward => (s, true)
  | .breaking n => ({ s with flow := if n ≤ 1 then .onward else .breaking (n - 1) }, false)
  | .continuing n =>
    if n ≤ 1 then ({ s with flow := .onward }, true)
    else ({ s with flow := .continuing (n - 1) }, false)
  | _ => (s, false)

/-- Ends the shell after a failure, if it shall. -/
def checked (s : Shell) : Shell :=
  if s.status ≠ 0 && s.flow = .onward && s.options.contains 'e' && !s.guarded then
    { s with flow := .leave }
  else s

/-- Does something where a failure does not end the shell. -/
def guarding (s : Shell) (f : Shell → Shell) : Shell :=
  { f { s with guarded := true } with guarded := s.guarded }

/-- A shell of its own for some commands: only what is to be ignored stays trapped. -/
def fork (s : Shell) : Shell :=
  { s with nesting := s.nesting + 1, traps := s.traps.filter (·.2.isEmpty), jobs := [] }

/-- Does something with the output in a pipe, and gives what came through it. -/
def piped (s : Shell) (f : Shell → Shell) : List UInt8 × Shell :=
  let k : Sink := .pipe s.pipes
  let inner := f ({ s with pipes := s.pipes + 1 }.lead 1 k)
  (inner.log.bytes k, { inner with log := inner.log.filter (·.1 != k), sinks := s.sinks })

/-- Shows a command before it is carried out, if it shall. -/
def trace (s : Shell) (k : Sink) (assigned : List (List Char × List Char))
    (fields : List (List Char)) : Shell :=
  if s.options.contains 'x' then
    let words := assigned.map (fun (name, value) => name ++ '=' :: value) ++ fields
    s.writeTo k (encode ("+ ".toList ++ List.intercalate [' '] words ++ ['\n']))
  else s

/-- Takes over what a program did. -/
def takeOver (s : Shell) (r : Report) : Shell :=
  let s := (s.write 1 r.out).write 2 r.err
  { s with status := r.code.getD 137, ticks := s.ticks + r.ticks }

/-- The value of a parameter that must have one. -/
def needed (s : Shell) (name : List Char) : Option (List Char) × Shell :=
  match s.parameter? name with
  | some value => (some value, s)
  | none =>
    if s.options.contains 'u' && name ≠ ['@'] && name ≠ ['*'] then
      (none, s.abort (name ++ ": parameter not set".toList))
    else (none, s)

/-- The fields that the arguments become. -/
def argumentGlyphs (s : Shell) (quoted : Bool) : List Glyph :=
  List.intercalate [Glyph.cut quoted] (s.arguments.tail.map fun cs => Glyph.ofText cs quoted)

mutual

/-- What a piece of a word becomes. -/
def expandPiece : Nat → Piece → Shell → List Glyph × Shell
  | 0, _, s => ([], s.forever)
  | n + 1, p, s =>
    match p with
    | .text cs quoted =>
      (if quoted then Glyph.ofText cs true else cs.map (.char · .written), s)
    | .senseless => ([], s.abort "Bad substitution".toList)
    | .arithmetic source =>
      match Word.read .inner source with
      | .error f => ([], s.abort f.message.toList)
      | .ok (w, _) =>
        let (gs, s) := expandWord n w s
        let expression := Glyph.text gs
        match Arithmetic.evaluate s.parameter? expression with
        | .error f => ([], s.abort (f.message expression))
        | .ok (value, changes) =>
          let s := changes.foldl (fun s (name, v) => s.assign name (toString v).toList) s
          (Glyph.ofText (toString value).toList true, s)
    | .output source quoted =>
      let (bytes, inner) := s.piped fun s =>
        (runOwn n (fun s => runScript n (Token.scan s.line source) s)
          { s with guarded := false }).awaitAll
      let before := s.status
      let s := { s.contained inner with inserted := some (inner.status % 256) }
      let text := (Utf8.decode (bytes.filter (· != 0))).toList
      let text := (text.reverse.dropWhile (· == '\n')).reverse
      (Glyph.ofText text quoted, { s with status := before })
    | .parameter ['@'] .plain quoted => (s.argumentGlyphs quoted, s)
    | .parameter ['*'] .plain false => (s.argumentGlyphs false, s)
    | .parameter name .plain quoted =>
      let (value?, s) := s.needed name
      (Glyph.ofText (value?.getD []) quoted, s)
    | .parameter name .length _ =>
      let (value?, s) := s.needed name
      (Glyph.ofText (digits (encode (value?.getD [])).length) true, s)
    | .parameter name (.trimmed atEnd greedy source) quoted =>
      let (value?, s) := s.needed name
      match Word.read .braces source with
      | .error f => ([], s.abort f.message.toList)
      | .ok (w, _) =>
        let (gs, s) := expandWord n w s
        (Glyph.ofText (Glyph.trim gs atEnd greedy (value?.getD [])) quoted, s)
    | .parameter name (.instead mark orEmpty source) quoted =>
      let value := s.parameter? name
      let given := if name == ['@'] || (name == ['*'] && !quoted) then s.argumentGlyphs quoted
        else Glyph.ofText (value.getD []) quoted
      let missing := value.isNone || (orEmpty && value == some [])
      let other (s : Shell) : List Glyph × Shell :=
        match Word.read (if quoted then .inner else .braces) source with
        | .ok (w, _) =>
          let (gs, s) := expandWord n w s
          (Glyph.asInserted gs, s)
        | .error f => ([], s.abort f.message.toList)
      match mark with
      | '+' => if missing then (if quoted then [.mark] else [], s) else other s
      | '-' => if missing then other s else (given, s)
      | '=' =>
        if missing then
          if isName name then
            let (gs, s) := other s
            (gs, s.assign name (Glyph.text gs))
          else ([], s.abort (name ++ ": bad variable name".toList))
        else (given, s)
      | _ =>
        if missing then
          let (gs, s) := other s
          let usual := if orEmpty then "parameter not set or null" else "parameter not set"
          let text := if source.isEmpty then usual.toList else Glyph.text gs
          ([], s.abort (name ++ ": ".toList ++ text))
        else (given, s)

/-- What a word becomes. -/
def expandWord : Nat → Word → Shell → List Glyph × Shell
  | 0, _, s => ([], s.forever)
  | _, [], s => ([], s)
  | n + 1, p :: w, s =>
    let (gs, s) := expandPiece n p s
    if s.flow ≠ .onward then ([], s)
    else
      let (more, s) := expandWord n w s
      (gs ++ more, s)

/-- The fields that words become. -/
def expandWords : Nat → List Word → Shell → List (List Char) × Shell
  | 0, _, s => ([], s.forever)
  | _, [], s => ([], s)
  | n + 1, w :: ws, s =>
    let (gs, s) := expandWord n w s
    if s.flow ≠ .onward then ([], s)
    else
      let (more, s) := expandWords n ws s
      (Glyph.fields s.separators gs ++ more, s)

/-- The fields that words become where an assignment is not cut into fields. -/
def expandDeclared : Nat → List Word → Shell → List (List Char) × Shell
  | 0, _, s => ([], s.forever)
  | _, [], s => ([], s)
  | n + 1, w :: ws, s =>
    let (gs, s) := expandWord n w s
    if s.flow ≠ .onward then ([], s)
    else
      let (more, s) := expandDeclared n ws s
      let here := if (Command.assignment? w).isSome then [Glyph.text gs]
        else Glyph.fields s.separators gs
      (here ++ more, s)

/-- Sets variables one after the other, and gives their values. -/
def assignAll : Nat → List (List Char × Word) → Shell → List (List Char × List Char) × Shell
  | 0, _, s => ([], s.forever)
  | _, [], s => ([], s)
  | n + 1, (name, w) :: rest, s =>
    let (gs, s) := expandWord n w s
    if s.flow ≠ .onward then ([], s)
    else
      let s := s.assign name (Glyph.text gs)
      if s.flow ≠ .onward then ([], s)
      else
        let (more, s) := assignAll n rest s
        ((name, Glyph.text gs) :: more, s)

/-- Sets up redirections one after the other. Says whether all could be. -/
def redirect : Nat → List Redirection → Shell → Bool × Shell
  | 0, _, s => (false, s.forever)
  | _, [], s => (true, s)
  | n + 1, r :: rs, s =>
    let (gs, s) := expandWord n r.target s
    let name := Glyph.text gs
    if s.flow ≠ .onward then (false, s)
    else match r.operator with
    | "<<" => redirect n rs { s with input := encode name }
    | "<" | "<>" =>
      match s.content? name, s.kind? name with
      | some bytes, _ => redirect n rs { s with input := bytes }
      | none, some _ => redirect n rs { s with input := [] }
      | none, none =>
        (false, s.complain 2 ("cannot open ".toList ++ name ++ ": No such file".toList))
    | "<&" => redirect n rs (if name == ['-'] then { s with input := [] } else s)
    | ">&" =>
      match name with
      | ['-'] => redirect n rs (s.lead r.descriptor .closed)
      | [c] =>
        if c.isDigit then
          let k := s.sink (c.toNat - '0'.toNat)
          if k = .closed then (false, s.complain 2 (name ++ ": Bad file descriptor".toList))
          else redirect n rs (s.lead r.descriptor k)
        else (false, s.abort Fault.badDescriptor.message.toList)
      | _ => (false, s.abort Fault.badDescriptor.message.toList)
    | op =>
      match s.opened name with
      | .error reason =>
        (false, s.complain 2 ("cannot create ".toList ++ name ++ ": ".toList ++ reason.toList))
      | .ok k =>
        let s := match k with
          | .file name => if op == ">>" then s else s.store name []
          | _ => s
        redirect n rs (s.lead r.descriptor k)

/-- Carries out something with redirections, if they can be set up. Else the shell may have to
end. -/
def redirected : Nat → List Redirection → Bool → (Shell → Shell) → Shell → Shell
  | 0, _, _, _, s => s.forever
  | _, [], _, body, s => body s
  | n + 1, r :: rs, strict, body, s =>
    match redirect n (r :: rs) s with
    | (false, s') =>
      { s' with sinks := s.sinks, input := s.input,
                flow := if strict && s'.flow = .onward then .leave else s'.flow }
    | (true, s') =>
      let inner := body s'
      let fed := (r :: rs).any (·.operator.startsWith "<")
      { inner with sinks := s.sinks, input := if fed then s.input else inner.input }

/-- Carries out something in a shell of its own, up to what is to be done on leaving it. -/
def runOwn : Nat → (Shell → Shell) → Shell → Shell
  | 0, _, s => s.forever
  | n + 1, body, s => finish n (body s.fork)

/-- Does what is to be done on leaving a shell. -/
def finish : Nat → Shell → Shell
  | 0, s => s.forever
  | n + 1, s =>
    match s.flow, s.traps.lookup "EXIT" with
    | .killed _, _ | .endless, _ | _, none => s
    | _, some action =>
      let quiet := { s with flow := .onward, traps := s.traps.filter (·.1 != "EXIT") }
      let inner := runScript n (Token.scan 1 action) quiet
      if inner.flow = .onward then { inner with flow := .leave, status := s.status } else inner

/-- Does what is to be done on the signals that have been received. -/
def settle : Nat → Shell → Shell
  | 0, s => s.forever
  | n + 1, s =>
    match s.nesting, s.received with
    | 0, signal :: rest =>
      let s := { s with received := rest }
      match s.traps.lookup (signalName signal) with
      | none => settle n (if isHarmless signal then s else { s with flow := .killed signal, received := [] })
      | some action =>
        if signal = 9 then { s with flow := .killed signal, received := [] }
        else
          let inner := runScript n (Token.scan 1 action) s
          settle n (if inner.flow = .onward then { inner with status := s.status } else inner)
    | _, _ => s

/-- Carries out a program, which gets the variables that are handed over. -/
def runProgram : Nat → List (List Char) → List Char → List (List Char) → Shell → Shell
  | 0, _, _, _, s => s.forever
  | n + 1, given, name, words, s =>
    if Program.baseName name == "sh".toList then
      let environment := s.bindings.filter fun p => s.exported.contains p.1 || given.contains p.1
      let child : Shell :=
        { bindings := environment, exported := environment.map (·.1), files := s.files,
          directory := s.directory, input := s.input, sinks := s.sinks, log := s.log,
          ticks := s.ticks, pipes := s.pipes }
      let child := runShell n name words child
      let signal? : Option Nat := match child.flow with
        | .killed signal => some signal
        | _ => none
      let s := s.contained { child with received := s.received, orphans := s.orphans ++ child.orphans }
      { s with status := (signal?.map (128 + ·)).getD s.status }.mourn signal?
    else match Program.run? s.content? (Place.isDirectory s.directory) name words s.input with
      | some r =>
        let s := s.takeOver r
        if Program.baseName name == "cat".toList then { s with input := [] } else s
      | none =>
        if name.isEmpty then s.complain 127 (name ++ ": Permission denied".toList)
        else if name.contains '/' && (s.kind? name).isSome then
          s.complain 126 (name ++ ": Permission denied".toList)
        else s.complain 127 (name ++ ": not found".toList)

/-- Carries out a function. -/
def runFunction : Nat → Function → List (List Char) → Shell → Shell
  | 0, _, _, s => s.forever
  | n + 1, f, words, s =>
    let inner := runCommand n f.body
      { s with arguments := s.arguments.take 1 ++ words, locals := some [], loops := 0,
               before := f.line - 1 }
    let inner := inner.restore (inner.locals.getD [])
    { inner with arguments := s.arguments, locals := s.locals, loops := s.loops, before := s.before,
                 flow := if inner.flow = .returning then .onward else inner.flow }

/-- Carries out a text on behalf of a command. -/
def runText : Nat → List Char → List Char → Shell → Shell
  | 0, _, _, s => s.forever
  | n + 1, name, text, s =>
    let inner := runScript n (Token.scan 1 text)
      { s with within := name, status := 0, before := 0 }
    { inner with within := s.within, before := s.before }

/-- Carries out a command that is given by its fields. A command in a function's name may be meant
for others. -/
def runFields : Nat → Bool → List (List Char) → List (List Char) → Shell → Shell
  | 0, _, _, _, s => s.forever
  | _, _, _, [], s => s
  | n + 1, functions, given, name :: words, s =>
    match if functions then s.functions.lookup name else none with
    | some f => runFunction n f words s
    | none =>
      match builtin? name words with
      | some f => s.under name f
      | none =>
        match String.ofList name, words with
        | "eval", _ => runText n name (List.intercalate [' '] words) s
        | ".", [] => s.succeed true
        | ".", file :: _ =>
          match if file.contains '/' then s.content? file else none with
          | some bytes =>
            let inner := runText n name (Utf8.decode bytes).toList s
            { inner with flow := if inner.flow = .returning then .onward else inner.flow }
          | none =>
            let message := if file.contains '/' then
                "cannot open ".toList ++ file ++ ": No such file".toList
              else file ++ ": not found".toList
            s.under name fun s => s.abort message
        | "type", _ => s.under name fun s => s.describe words
        | "command", [] => s.succeed true
        | "command", ['-', 'v'] :: words => s.under name fun s => s.locate words
        | "command", ['-', 'V'] :: words => s.under name fun s => s.describe words
        | "command", ['-', 'p'] :: words => runFields n false given words s
        | "command", ('-' :: c :: _) :: _ =>
          s.under name fun s => s.complain 2 (about "Illegal option -" [c])
        | "command", words => runFields n false given words s
        | "exec", [] => s
        | "exec", name :: words =>
          let inner := s.under "exec".toList fun s => runProgram n given name words s
          { inner with flow := if inner.flow = .endless then .endless else .leave, traps := [] }
        | _, _ => runProgram n given name words s

/-- Carries out a simple command. -/
def runSimple : Nat → List (List Char × Word) → List Word → List Redirection → Shell → Shell
  | 0, _, _, _, s => s.forever
  | n + 1, assigned, words, rs, s =>
    let s := { s with inserted := none }
    let (fields, s) := if Command.declares words then expandDeclared n words s
      else expandWords n words s
    let k := s.sink 2
    if s.flow ≠ .onward then s
    else match fields with
    | [] =>
      redirected n rs false
        (fun s =>
          let (values, s) := assignAll n assigned s
          if s.flow ≠ .onward then s
          else
            let s := if values.isEmpty then s else s.trace k values []
            { s with status := s.inserted.getD 0 })
        s
    | name :: arguments =>
      let own := (s.functions.lookup name).isNone
      let special := own && Command.specials.contains (String.ofList name)
      let names := assigned.map (·.1)
      let run (s : Shell) : Shell :=
        let saved := s.saved names
        let (values, s) := assignAll n assigned s
        if s.flow ≠ .onward then s
        else
          let s := runFields n true names fields (s.trace k values fields)
          if special then s else s.restore saved
      if own && name == "exec".toList && arguments.isEmpty then
        match redirect n rs s with
        | (true, s') => run s'
        | (false, s') => { s' with flow := .leave }
      else redirected n rs special run s

/-- Carries out a command. -/
def runCommand : Nat → Command → Shell → Shell
  | 0, _, s => s.forever
  | n + 1, c, s =>
    if s.flow ≠ .onward then s
    else match c with
    | .nothing => s
    | .simple line assigned words rs =>
      (settle n (runSimple n assigned words rs { s with line := line - s.before })).checked
    | .pipe a b =>
      let (bytes, first) := s.piped fun s => runOwn n (runCommand n a) s
      let first := s.contained first
      let second := runOwn n (runCommand n b) { first with input := bytes, ticks := s.ticks }
      let s' := first.contained second
      (settle n { s' with input := first.input, ticks := max first.ticks s'.ticks }).checked
    | .opposite a =>
      let s := s.guarding (runCommand n a)
      if s.flow ≠ .onward then s else { s with status := if s.status = 0 then 1 else 0 }
    | .andThen a b =>
      let s := s.guarding (runCommand n a)
      if s.status = 0 then runCommand n b s else s
    | .orElse a b =>
      let s := s.guarding (runCommand n a)
      if s.status = 0 then s else runCommand n b s
    | .sequence a b => runCommand n b (runCommand n a s)
    | .background a =>
      let number := s.latest.getD 5000 + 1
      let inner := (runOwn n (runCommand n a) { s with input := [], log := [] }).awaitAll
      let ends := if inner.flow = .endless then Nat.pow 2 64 else inner.ticks
      let job : Job := ⟨number, ends, inner.status % 256, none, inner.log⟩
      { s with status := 0, files := inner.files, pipes := inner.pipes, received := inner.received,
               jobs := s.jobs ++ [job], latest := some number }
    | .group false a rs => redirected n rs false (runCommand n a) s
    | .group true a rs =>
      (settle n (redirected n rs false
        (fun s => s.contained (runOwn n (runCommand n a) s)) s)).checked
    | .branch condition yes no rs =>
      redirected n rs false
        (fun s =>
          let s := s.guarding (runCommand n condition)
          if s.flow ≠ .onward then s
          else if s.status = 0 then runCommand n yes s
          else if no matches .nothing then { s with status := 0 }
          else runCommand n no s)
        s
    | .loop while? condition body rs =>
      let s' := redirected n rs false (runLoop n while? condition body 0)
        { s with loops := s.loops + 1 }
      { s' with loops := s.loops }
    | .each name words body rs =>
      let (fields, s) := match words with
        | some ws => expandWords n ws s
        | none => (s.arguments.tail, s)
      if s.flow ≠ .onward then s
      else
        let s' := redirected n rs false
          (fun s => runEach n name body fields (if fields.isEmpty then { s with status := 0 } else s))
          { s with loops := s.loops + 1 }
        { s' with loops := s.loops }
    | .choice subject arms rs =>
      redirected n rs false
        (fun s =>
          let (gs, s) := expandWord n subject s
          if s.flow ≠ .onward then s else runArms n (Glyph.text gs) arms { s with status := 0 })
        s
    | .define name line body =>
      { s with functions := (name, ⟨line, body⟩) :: s.functions.filter (·.1 != name), status := 0 }

/-- Carries out the first body with a pattern that matches a text. -/
def runArms : Nat → List Char → List (List Word × Command) → Shell → Shell
  | 0, _, _, s => s.forever
  | _, _, [], s => s
  | n + 1, text, (patterns, body) :: arms, s =>
    match runPatterns n text patterns s with
    | (true, s) => runCommand n body s
    | (false, s) => if s.flow ≠ .onward then s else runArms n text arms s

/-- Says whether a text matches one of some patterns. -/
def runPatterns : Nat → List Char → List Word → Shell → Bool × Shell
  | 0, _, _, s => (false, s.forever)
  | _, _, [], s => (false, s)
  | n + 1, text, w :: ws, s =>
    let (gs, s) := expandWord n w s
    if s.flow ≠ .onward then (false, s)
    else if Glyph.fits gs text then (true, s)
    else runPatterns n text ws s

/-- Carries out the passes of a loop. -/
def runLoop : Nat → Bool → Command → Command → Nat → Shell → Shell
  | 0, _, _, _, _, s => s.forever
  | n + 1, while?, condition, body, status, s =>
    let s := s.guarding (runCommand n condition)
    if s.flow ≠ .onward then s.afterPass.1
    else if (s.status = 0) ≠ while? then { s with status }
    else
      let s := runCommand n body s
      match s.afterPass with
      | (s, true) => runLoop n while? condition body s.status s
      | (s, false) => s

/-- Carries out the passes of a loop over words. -/
def runEach : Nat → List Char → Command → List (List Char) → Shell → Shell
  | 0, _, _, _, s => s.forever
  | _, _, _, [], s => s
  | n + 1, name, body, field :: fields, s =>
    let s := s.assign name field
    if s.flow ≠ .onward then s
    else match (runCommand n body s).afterPass with
      | (s, true) => runEach n name body fields s
      | (s, false) => s

/-- Carries out tokens line by line. -/
def runScript : Nat → List Lexeme → Shell → Shell
  | 0, _, s => s.forever
  | n + 1, ts, s =>
    let here := Command.skipNewlines ts
    if Command.front here = .finish || s.flow ≠ .onward || s.options.contains 'n' then s
    else match Command.readLine here with
      | .error r => { s with line := r.line }.abort r.fault.message.toList
      | .ok (c, ts) =>
        let s := { s with line := Command.lineOf here }
        match Command.flawWithin n (here.take (here.length - ts.length)) with
        | some f => s.abort f.message.toList
        | none => runScript n ts (runCommand n c s)

/-- Carries out what the words behind the name of a shell ask for: a text behind `-c`, a file, or
else the input. -/
def runShell : Nat → List Char → List (List Char) → Shell → Shell
  | 0, _, _, s => s.forever
  | n + 1, name, words, s =>
    let s := { s with arguments := [name] }
    let refused (message : List Char) : Shell := { s with line := 0 }.abort message
    match s.takeOptions false words with
    | .error option => refused (about "Illegal option " (option.take 2))
    | .ok (s, [], _, true) => { s with line := 0 }.abort "-c requires an argument".toList
    | .ok (s, source :: arguments, _, true) =>
      let arguments := if arguments.isEmpty then [name] else arguments
      finish n (runScript n (Token.scan 1 source) { s with arguments })
    | .ok (s, file :: arguments, _, false) =>
      if s.options.contains 's' then
        finish n (runScript n (Token.scan 1 (Utf8.decode s.input).toList)
          { s with arguments := name :: file :: arguments, input := [] })
      else match s.content? file with
        | some bytes =>
          finish n (runScript n (Token.scan 1 (Utf8.decode bytes).toList)
            { s with arguments := file :: arguments })
        | none => refused ("cannot open ".toList ++ file ++ ": No such file".toList)
    | .ok (s, [], _, false) =>
      finish n (runScript n (Token.scan 1 (Utf8.decode s.input).toList) { s with input := [] })

end

end Shell

/-- How deep commands of a shell may nest. -/
def depth : Nat := 20000

/-- What a program does, be it the shell or another one, if there is one with that name. -/
def run? (name : List Char) (arguments : List (List Char)) : Option Report :=
  if Program.baseName name == "sh".toList then
    some (Shell.runShell depth name arguments {}).report
  else
    let s : Shell := {}
    Program.run? s.content? (Place.isDirectory s.directory) name arguments []

end Stepwise.Host
