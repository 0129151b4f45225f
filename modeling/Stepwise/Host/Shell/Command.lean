import Stepwise.Host.Shell.Token

/-!
# Commands of the shell

A line is a list of commands: programs with words, pipelines, commands joined by what came of the
one before, groups, branches, loops, choices by patterns, and functions, with redirections.

* `Command.readLine`: the commands in front of a list of tokens, up to the end of a line.
-/

namespace Stepwise.Host.Shell

/-- A redirection of a descriptor. -/
structure Redirection where
  descriptor : Nat
  operator : String
  target : Word

/-- A command. -/
inductive Command where
  | nothing
  /-- Assignments, words and redirections, and the line where they begin. -/
  | simple (line : Nat) (assigned : List (List Char × Word)) (words : List Word)
      (rs : List Redirection)
  | pipe (a b : Command)
  | opposite (a : Command)
  | andThen (a b : Command)
  | orElse (a b : Command)
  | sequence (a b : Command)
  /-- The command is not waited for. -/
  | background (a : Command)
  /-- Commands between braces, or in a shell of their own. -/
  | group (own : Bool) (a : Command) (rs : List Redirection)
  | branch (condition yes no : Command) (rs : List Redirection)
  /-- Repeats a body as long as a condition succeeds, or fails. -/
  | loop (while? : Bool) (condition body : Command) (rs : List Redirection)
  /-- Repeats a body for every word, or for every argument. -/
  | each (name : List Char) (words : Option (List Word)) (body : Command) (rs : List Redirection)
  /-- Carries out the first body with a pattern that matches a word. -/
  | choice (subject : Word) (arms : List (List Word × Command)) (rs : List Redirection)
  /-- Gives a command a name, and says where this is done. -/
  | define (name : List Char) (line : Nat) (body : Command)

/-- Why a text is refused, and in which line. -/
structure Refusal where
  fault : Fault
  line : Nat

namespace Command

/-- Reads commands, and gives the tokens left. -/
abbrev Reader (α : Type) := List Lexeme → Except Refusal (α × List Lexeme)

/-- The reserved words. -/
def reserved : List String :=
  ["if", "then", "else", "elif", "fi", "while", "until", "do", "done", "for", "in", "case", "esac",
   "\x7b", "\x7d", "!"]

/-- The commands of the shell that end it when they fail. -/
def specials : List String :=
  [":", ".", "break", "continue", "eval", "exec", "exit", "export", "local", "readonly", "return",
   "set", "shift", "times", "trap", "unset"]

/-- The reserved word that a word is. -/
def reserved? (w : Word) : Option String :=
  (w.plain?.map String.ofList).filter reserved.contains

/-- The token that stands here. -/
def front : List Lexeme → Token
  | [] => .finish
  | l :: _ => l.token

/-- The line that is reached here. -/
def lineOf : List Lexeme → Nat
  | [] => 1
  | l :: _ => l.line

/-- The reserved word that stands here. -/
def here? (ts : List Lexeme) : Option String :=
  match front ts with
  | .word w => reserved? w
  | _ => none

/-- What a token is called in a fault. A word may be a reserved word. -/
def called (reserving : Bool) : Token → String
  | .newline => "newline"
  | .operator t => "\"" ++ t ++ "\""
  | .redirection .. => "redirection"
  | .finish | .fault _ => "end of file"
  | .word w =>
    match if reserving then reserved? w else none with
    | some r => "\"" ++ r ++ "\""
    | none => "word"

/-- Refuses what stands here with a fault. -/
def refuseWith {α : Type} (f : Fault) : Reader α := fun ts => .error ⟨f, lineOf ts⟩

/-- Refuses what stands here. -/
def refuse {α : Type} (expected : Option String) (reserving : Bool) : Reader α := fun ts =>
  match front ts with
  | .fault f => refuseWith f ts
  | t => refuseWith (.unexpected (called reserving t) expected) ts

/-- Refuses what stands here where nothing in particular is expected. -/
def refuseAny {α : Type} : Reader α := refuse none true

/-- Skips newlines. -/
def skipNewlines : List Lexeme → List Lexeme
  | ⟨.newline, _⟩ :: ts => skipNewlines ts
  | ts => ts

/-- Skips a reserved word that has to stand here. -/
def expect (r : String) : Reader Unit := fun ts =>
  if here? ts == some r then .ok ((), ts.drop 1) else refuse (some ("\"" ++ r ++ "\"")) true ts

/-- Skips an operator that has to stand here. -/
def expectOperator (t : String) (reserving : Bool) : Reader Unit := fun ts =>
  if front ts = .operator t then .ok ((), ts.drop 1)
  else refuse (some ("\"" ++ t ++ "\"")) reserving ts

/-- A redirection has a target that makes sense. -/
def isSound (operator : String) (target : Word) : Bool :=
  match target.plain? with
  | some [c] => !operator.endsWith "&" || c.isDigit || c == '-'
  | some _ => !operator.endsWith "&"
  | none => true

/-- Reads redirections in front of other tokens. -/
def redirections : Reader (List Redirection)
  | ⟨.redirection d op, _⟩ :: ⟨.word w, line⟩ :: ts =>
    if isSound op w then do
      let (rs, ts) ← redirections ts
      return (⟨d, op, w⟩ :: rs, ts)
    else .error ⟨.badDescriptor, line⟩
  | ⟨.redirection .., _⟩ :: ts => refuse none false ts
  | ts => .ok ([], ts)

/-- The name and the value in a word that assigns. -/
def assignment? : Word → Option (List Char × Word)
  | .text cs false :: rest =>
    let name := cs.takeWhile (· != '=')
    match cs.drop name.length with
    | [] => none
    | _ :: value =>
      if isName name then some (name, if value.isEmpty then rest else .text value false :: rest)
      else none
  | _ => none

/-- Reads a simple command that begins in some line: assignments, words and redirections. -/
def simpleFrom (line : Nat) :
    List (List Char × Word) → List Word → List Redirection → Reader Command
  | as, ws, rs, ⟨.word w, _⟩ :: ts =>
    match ws, assignment? w with
    | [], some a => simpleFrom line (as ++ [a]) ws rs ts
    | _, _ => simpleFrom line as (ws ++ [w]) rs ts
  | as, ws, rs, ⟨.redirection d op, _⟩ :: ⟨.word w, at_⟩ :: ts =>
    if isSound op w then simpleFrom line as ws (rs ++ [⟨d, op, w⟩]) ts
    else .error ⟨.badDescriptor, at_⟩
  | _, _, _, ⟨.redirection .., _⟩ :: ts => refuse none false ts
  | as, ws, rs, ts => .ok (simple line as ws rs, ts)

/-- The name of a function whose definition begins here. -/
def defined? : List Lexeme → Option Word
  | ⟨.word w, _⟩ :: ⟨.operator "(", _⟩ :: _ => if (assignment? w).isSome then none else some w
  | _ => none

/-- The name that a word gives to a function. -/
def functionName? (w : Word) : Option (List Char) :=
  w.plain?.filter fun name => isName name && !specials.contains (String.ofList name)

/-- The words of a loop up to the end of the line. -/
def wordsHere : List Lexeme → List Word × List Lexeme
  | ⟨.word w, _⟩ :: ts =>
    let (ws, ts) := wordsHere ts
    (w :: ws, ts)
  | ts => ([], ts)

/-- A list of commands ends here. -/
def endsHere (ts : List Lexeme) : Bool :=
  match front ts with
  | .finish => true
  | .operator t => t == ")" || t == ";;"
  | _ =>
    ["then", "else", "elif", "fi", "do", "done", "\x7d", "esac"].contains ((here? ts).getD "")

/-- The patterns in front of a body. -/
def patterns : Reader (List Word)
  | ⟨.word w, _⟩ :: ⟨.operator "|", _⟩ :: ts => do
    let (ws, ts) ← patterns ts
    return (w :: ws, ts)
  | ⟨.word w, _⟩ :: ts => .ok ([w], ts)
  | ts => refuse (some "\")\"") false ts

mutual

/-- Reads one command that is not joined to others. -/
def readOne : Nat → Reader Command
  | 0, ts => refuseAny ts
  | n + 1, ts =>
    match here? ts with
    | some "\x7b" => do
      let (a, ts) ← readList n ts.tail
      let (_, ts) ← expect "\x7d" ts
      let (rs, ts) ← redirections ts
      return (group false a rs, ts)
    | some "if" => readBranch n ts.tail
    | some "while" => readLoop n true ts.tail
    | some "until" => readLoop n false ts.tail
    | some "for" => readEach n ts.tail
    | some "case" => readChoice n ts.tail
    | some _ => refuseAny ts
    | none =>
      match defined? ts with
      | some w => do
        let (_, rest) ← expectOperator ")" false (ts.drop 2)
        match functionName? w with
        | none => refuseWith .badFunctionName rest
        | some name => do
          let (body, rest) ← readOne n (skipNewlines rest)
          return (define name (lineOf ts) body, rest)
      | none =>
        match front ts with
        | .operator "(" => do
          let (a, ts) ← readList n ts.tail
          let (_, ts) ← expectOperator ")" true ts
          let (rs, ts) ← redirections ts
          return (group true a rs, ts)
        | .word _ | .redirection .. => simpleFrom (lineOf ts) [] [] [] ts
        | _ => refuseAny ts

/-- Reads a branch behind its first word. -/
def readBranch : Nat → Reader Command
  | 0, ts => refuseAny ts
  | n + 1, ts => do
    let (condition, ts) ← readList n ts
    let (_, ts) ← expect "then" ts
    let (yes, ts) ← readList n ts
    match here? ts with
    | some "elif" => do
      let (no, ts) ← readBranch n ts.tail
      return (branch condition yes no [], ts)
    | some "else" => do
      let (no, ts) ← readList n ts.tail
      let (_, ts) ← expect "fi" ts
      let (rs, ts) ← redirections ts
      return (branch condition yes no rs, ts)
    | _ => do
      let (_, ts) ← expect "fi" ts
      let (rs, ts) ← redirections ts
      return (branch condition yes nothing rs, ts)

/-- Reads the body of a loop. -/
def readBody : Nat → Reader (Command × List Redirection)
  | 0, ts => refuseAny ts
  | n + 1, ts => do
    let (_, ts) ← expect "do" ts
    let (body, ts) ← readList n ts
    let (_, ts) ← expect "done" ts
    let (rs, ts) ← redirections ts
    return ((body, rs), ts)

/-- Reads a loop with a condition behind its first word. -/
def readLoop : Nat → Bool → Reader Command
  | 0, _, ts => refuseAny ts
  | n + 1, while?, ts => do
    let (condition, ts) ← readList n ts
    let ((body, rs), ts) ← readBody n ts
    return (loop while? condition body rs, ts)

/-- Reads a loop over words behind its first word. -/
def readEach : Nat → Reader Command
  | 0, ts => refuseAny ts
  | n + 1, ts => do
    let name? : Option (List Char) := match front ts with
      | .word w => w.plain?.filter isName
      | _ => none
    match name? with
    | none => refuseWith .badLoopVariable ts
    | some name =>
      let ts := ts.tail
      if here? (skipNewlines ts) == some "in" then
        let (ws, ts) := wordsHere (skipNewlines ts).tail
        match front ts with
        | .newline | .operator ";" => do
          let ((body, rs), ts) ← readBody n (skipNewlines ts.tail)
          return (each name (some ws) body rs, ts)
        | _ => refuse none false ts
      else
        let ts := if front ts = .operator ";" then ts.tail else ts
        let ((body, rs), ts) ← readBody n (skipNewlines ts)
        return (each name none body rs, ts)

/-- Reads a choice behind its first word. -/
def readChoice : Nat → Reader Command
  | 0, ts => refuseAny ts
  | n + 1, ts =>
    match front ts with
    | .word w => do
      let ts := skipNewlines ts.tail
      if here? ts == some "in" then
        let (arms, ts) ← readArms n (skipNewlines ts.tail)
        let (rs, ts) ← redirections ts
        return (choice w arms rs, ts)
      else refuse (some "\"in\"") false ts
    | _ => refuse (some "word") true ts

/-- Reads the patterns and bodies of a choice, and its last word. -/
def readArms : Nat → Reader (List (List Word × Command))
  | 0, ts => refuseAny ts
  | n + 1, ts =>
    if here? ts == some "esac" then .ok ([], ts.tail)
    else do
      let (ps, ts) ← patterns (if front ts = .operator "(" then ts.tail else ts)
      let (_, ts) ← expectOperator ")" false ts
      let (body, ts) ←
        if endsHere (skipNewlines ts) then .ok (nothing, skipNewlines ts) else readList n ts
      if here? ts == some "esac" then return ([(ps, body)], ts.tail)
      else do
        let (_, ts) ← expectOperator ";;" true ts
        let (arms, ts) ← readArms n (skipNewlines ts)
        return ((ps, body) :: arms, ts)

/-- Reads commands joined by pipes. -/
def readPipes : Nat → Reader Command
  | 0, ts => refuseAny ts
  | n + 1, ts => do
    let (a, ts) ← readOne n ts
    if front ts = .operator "|" then do
      let (b, ts) ← readPipes n (skipNewlines ts.tail)
      return (pipe a b, ts)
    else return (a, ts)

/-- Reads a pipeline. -/
def readPipeline : Nat → Reader Command
  | 0, ts => refuseAny ts
  | n + 1, ts =>
    if here? ts == some "!" then do
      let (a, ts) ← readPipes n ts.tail
      return (opposite a, ts)
    else readPipes n ts

/-- Reads what is joined to a command. -/
def readJoined : Nat → Command → Reader Command
  | 0, a, ts => .ok (a, ts)
  | n + 1, a, ts =>
    if front ts = .operator "&&" then do
      let (b, ts) ← readPipeline n (skipNewlines ts.tail)
      readJoined n (andThen a b) ts
    else if front ts = .operator "||" then do
      let (b, ts) ← readPipeline n (skipNewlines ts.tail)
      readJoined n (orElse a b) ts
    else .ok (a, ts)

/-- Reads commands inside a group, over several lines. There are none only at the end. -/
def readList : Nat → Reader Command
  | 0, ts => refuseAny ts
  | n + 1, ts => do
    let ts := skipNewlines ts
    if front ts = .finish then return (nothing, ts)
    else
      let (a, ts) ← readPipeline n ts
      let (a, ts) ← readJoined n a ts
      let a := if front ts = .operator "&" then background a else a
      match front ts with
      | .operator ";" | .operator "&" | .newline =>
        if endsHere (skipNewlines ts.tail) then return (a, skipNewlines ts.tail)
        else
          let (b, ts) ← readList n ts.tail
          return (sequence a b, ts)
      | _ => return (a, ts)

end

/-- Reads the commands of one line, in at most so many steps. -/
def readLineTo : Nat → Reader Command
  | 0, ts => refuseAny ts
  | n + 1, ts => do
    let (a, ts) ← readPipeline n ts
    let (a, ts) ← readJoined n a ts
    let a := if front ts = .operator "&" then background a else a
    match front ts with
    | .finish | .newline => return (a, ts.tail)
    | .operator ";" | .operator "&" =>
      match front ts.tail with
      | .finish | .newline => return (a, ts.tail.tail)
      | _ =>
        let (b, ts) ← readLineTo n ts.tail
        return (sequence a b, ts)
    | _ => refuseAny ts

/-- The commands of the first line that is not empty. -/
def readLine (ts : List Lexeme) : Except Refusal (Command × List Lexeme) :=
  readLineTo (6 * ts.length + 12) (skipNewlines ts)

/-- The command gives variables values by its arguments. -/
def declares : List Word → Bool
  | w :: _ => ["export", "local", "readonly"].contains (String.ofList ((w.plain?).getD []))
  | [] => false

mutual

/-- The fault of a text whose output is to be inserted, looked for in at most so many steps. -/
def flaw : Nat → List Lexeme → Option Fault
  | 0, _ => none
  | n + 1, ts =>
    let here := skipNewlines ts
    if front here = .finish then none
    else match readLine here with
      | .error r => some r.fault
      | .ok (_, ts) => (flawWithin n (here.take (here.length - ts.length))).or (flaw n ts)

/-- The fault of a text whose output is to be inserted into some words. -/
def flawWithin : Nat → List Lexeme → Option Fault
  | 0, _ => none
  | n + 1, ts =>
    ts.findSome? fun
      | ⟨.word w, _⟩ => w.findSome? fun
        | .output source _ => flaw n (Token.scan 1 source)
        | _ => none
      | _ => none

end

end Command

end Stepwise.Host.Shell
