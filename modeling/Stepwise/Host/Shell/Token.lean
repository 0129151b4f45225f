import Stepwise.Host.Shell.Word

/-!
# Tokens of the shell

A text is read as words, operators and redirections. A document that a redirection takes its input
from stands behind the line with the redirection, up to a line that a word names; it is read as a
word of its own.

* `Token.scan`: the tokens of a text.
-/

namespace Stepwise.Host.Shell

/-- A token. -/
inductive Token where
  | word (w : Word)
  | operator (text : String)
  /-- A change of where an output goes or the input comes from. -/
  | redirection (descriptor : Nat) (operator : String)
  | newline
  | finish
  | fault (f : Fault)
deriving DecidableEq

/-- A token with the line that is reached behind it. -/
structure Lexeme where
  token : Token
  line : Nat

namespace Token

/-- The operators, longer ones first. -/
def operators : List String := ["&&", "||", ";;", ";", "&", "|", "(", ")"]

/-- The operators that redirect, longer ones first. -/
def redirections : List String := ["<<-", "<<", ">>", ">&", "<&", "<>", ">|", ">", "<"]

/-- The first text of a list that stands in front of a text, and what follows it. -/
def front? (texts : List String) (cs : List Char) : Option (String × List Char) :=
  (texts.find? fun t => t.toList.isPrefixOf cs).map fun t => (t, cs.drop t.length)

/-- A redirection in front of a text, perhaps behind the descriptor it is about. -/
def redirection? (cs : List Char) : Option (Nat × String × List Char) :=
  let usual (t : String) : Nat := if t.startsWith "<" then 0 else 1
  match cs with
  | [] => none
  | c :: rest =>
    if c.isDigit then
      (front? redirections rest).map fun (t, rest) => (c.toNat - '0'.toNat, t, rest)
    else (front? redirections cs).map fun (t, rest) => (usual t, t, rest)

/-- How many lines end in a text. -/
def lines (cs : List Char) : Nat := cs.count '\n'

/-- Skips blanks, and newlines behind a backslash. -/
def skipBlanks : List Char → List Char
  | ' ' :: cs | '\t' :: cs | '\\' :: '\n' :: cs => skipBlanks cs
  | cs => cs

/-! ## Documents -/

/-- A document: what is in it, how many lines it takes with the line that ends it, and what follows
it. -/
structure Document where
  text : List Char
  lines : Nat
  rest : List Char

/-- Reads a document up to a line, perhaps without tabs in front of its lines, in at most so many
steps. -/
def documentFrom (ends : List Char) (tabs : Bool) : Nat → List Char → Document
  | 0, cs => ⟨[], 0, cs⟩
  | n + 1, cs =>
    if cs.isEmpty then ⟨[], 0, []⟩
    else
      let line := cs.takeWhile (· != '\n')
      let rest := cs.drop (line.length + 1)
      let ended := if line.length < cs.length then ['\n'] else []
      let line := if tabs then line.dropWhile (· == '\t') else line
      if line == ends then ⟨[], ended.length, rest⟩
      else
        let d := documentFrom ends tabs n rest
        ⟨line ++ ended ++ d.text, ended.length + d.lines, d.rest⟩

/-- The word that a document is. -/
def documentWord (quoted : Bool) (text : List Char) : Word :=
  if quoted then [.text text true]
  else match Word.read .document text with
    | .ok (w, _) => w
    | .error _ => [.text text true]

/-! ## Tokens -/

/-- The tokens of a text that begins in some line, read in at most so many steps. So many lines are
taken by documents before the next line. -/
def scanFrom : Nat → Nat → Nat → List Char → List Lexeme
  | 0, line, _, _ => [⟨finish, line⟩]
  | n + 1, line, owed, cs =>
    let line := line + (lines cs - lines (skipBlanks cs))
    match skipBlanks cs with
    | [] => [⟨finish, line⟩]
    | '\n' :: cs => ⟨newline, line + 1 + owed⟩ :: scanFrom n (line + 1 + owed) 0 cs
    | '#' :: cs => scanFrom n line owed (cs.dropWhile (· != '\n'))
    | cs =>
      match redirection? cs with
      | some (d, t, rest) =>
        if t == "<<" || t == "<<-" then
          let start := skipBlanks rest
          match Word.read .line start with
          | .ok (w, rest) =>
            if rest.length == start.length then ⟨redirection d "<<", line⟩ :: scanFrom n line owed rest
            else
              let (ends, quoted) := w.literal
              let here := rest.takeWhile (· != '\n')
              let behind := rest.drop (here.length + 1)
              let body := documentFrom ends (t == "<<-") (behind.length + 1) behind
              let rest := here ++ if here.length < rest.length then '\n' :: body.rest else []
              ⟨redirection d "<<", line⟩ :: ⟨word (documentWord quoted body.text), line⟩ ::
                scanFrom n line (owed + body.lines) rest
          | .error f => [⟨fault f, line + lines start⟩]
        else ⟨redirection d t, line⟩ :: scanFrom n line owed rest
      | none =>
        match front? operators cs with
        | some (t, rest) => ⟨operator t, line⟩ :: scanFrom n line owed rest
        | none =>
          match Word.read .line cs with
          | .ok (w, rest) =>
            let line := line + (lines cs - lines rest)
            ⟨word w, line⟩ :: scanFrom n line owed rest
          | .error f => [⟨fault f, line + lines cs⟩]

/-- The tokens of a text. -/
def scan (line : Nat) (cs : List Char) : List Lexeme := scanFrom (cs.length + 1) line 0 cs

end Token

end Stepwise.Host.Shell
