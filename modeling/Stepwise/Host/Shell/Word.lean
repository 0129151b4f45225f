/-!
# Words of the shell

Quotes and backslashes keep characters from having a meaning; a dollar sign and a backquote begin
what is replaced when the word is used.

* `Word.read`: the word in front of a text.
-/

namespace Stepwise.Host.Shell

/-- What is done with the value of a parameter. -/
inductive Use where
  | plain
  | length
  /-- Something else may stand for it: a mark among `-`, `=`, `+` and `?`, whether an empty value
  counts as none, and a word still to be read. -/
  | instead (mark : Char) (orEmpty : Bool) (source : List Char)
  /-- What matches a pattern, still to be read, is cut off at the end or in front, as much of it as
  possible or as little. -/
  | trimmed (atEnd greedy : Bool) (source : List Char)
deriving DecidableEq

/-- A piece of a word. -/
inductive Piece where
  | text (cs : List Char) (quoted : Bool)
  | parameter (name : List Char) (use : Use) (quoted : Bool)
  | arithmetic (source : List Char)
  /-- The output of a command still to be read. -/
  | output (source : List Char) (quoted : Bool)
  /-- What stands between braces makes no sense. -/
  | senseless
deriving DecidableEq

/-- A word. -/
abbrev Word := List Piece

/-- What a line that is no command is refused with. -/
inductive Fault where
  | unterminated
  | unclosedBrace
  | unclosedArithmetic
  | unclosedBackquote
  | badFunctionName
  | badLoopVariable
  | badDescriptor
  | unexpected (token : String) (expected : Option String)
deriving DecidableEq

/-- A fault in words. -/
def Fault.message : Fault → String
  | unterminated => "Syntax error: Unterminated quoted string"
  | unclosedBrace => "Syntax error: Missing '\x7d'"
  | unclosedArithmetic => "Syntax error: Missing '))'"
  | unclosedBackquote => "Syntax error: EOF in backquote substitution"
  | badFunctionName => "Syntax error: Bad function name"
  | badLoopVariable => "Syntax error: Bad for loop variable"
  | badDescriptor => "Syntax error: Bad fd number"
  | unexpected token none => "Syntax error: " ++ token ++ " unexpected"
  | unexpected token (some expected) =>
    "Syntax error: " ++ token ++ " unexpected (expecting " ++ expected ++ ")"

/-! ## Names -/

/-- A character of a name. -/
def isNameChar (c : Char) : Bool := c.isAlphanum || c == '_'

/-- A text that is a name. -/
def isName : List Char → Bool
  | [] => false
  | c :: cs => isNameChar c && !c.isDigit && cs.all isNameChar

/-- A parameter that is no variable. -/
def isSpecial (c : Char) : Bool := "?$#@*!-".toList.contains c || c.isDigit

/-- The parameter in front of a text. -/
def parameterName? : List Char → Option (List Char × List Char)
  | [] => none
  | c :: cs =>
    if isSpecial c then some ([c], cs)
    else if isNameChar c then some (c :: cs.takeWhile isNameChar, cs.dropWhile isNameChar)
    else none

/-- The parameter in front of a text between braces, where numbers may have several digits. -/
def bracedName? (cs : List Char) : Option (List Char × List Char) :=
  match cs.takeWhile Char.isDigit with
  | [] => parameterName? cs
  | digits => some (digits, cs.dropWhile Char.isDigit)

/-! ## Groups -/

/-- How characters are taken while the end of a group is looked for. -/
inductive Quoting where
  | plain
  | single
  | double

/-- The text up to the character that closes a group, and what follows it. Single quotes may be
characters like others. -/
def closing? (singles : Bool) (opens closes : Char) : Nat → Quoting → List Char →
    Option (List Char × List Char)
  | _, _, [] => none
  | depth, .single, c :: cs =>
    (closing? singles opens closes depth (if c == '\'' then .plain else .single) cs).map
      fun (inside, rest) => (c :: inside, rest)
  | depth, q, '\\' :: c :: cs =>
    (closing? singles opens closes depth q cs).map
      fun (inside, rest) => ('\\' :: c :: inside, rest)
  | depth, .double, c :: cs =>
    (closing? singles opens closes depth (if c == '"' then .plain else .double) cs).map
      fun (inside, rest) => (c :: inside, rest)
  | depth, .plain, c :: cs =>
    if c == closes && depth == 0 then some ([], cs)
    else
      let depth := if c == opens then depth + 1 else if c == closes then depth - 1 else depth
      let q : Quoting :=
        if singles && c == '\'' then .single else if c == '"' then .double else .plain
      (closing? singles opens closes depth q cs).map fun (inside, rest) => (c :: inside, rest)

/-- The text up to a backquote, without the backslashes that keep characters from having a meaning
in it, and what follows the backquote. -/
def backquoted? (quoted : Bool) : List Char → Option (List Char × List Char)
  | [] => none
  | '`' :: rest => some ([], rest)
  | '\\' :: c :: rest =>
    let kept := if "$`\\".toList.contains c || (quoted && c == '"') then [c] else ['\\', c]
    (backquoted? quoted rest).map fun (inside, rest) => (kept ++ inside, rest)
  | c :: rest => (backquoted? quoted rest).map fun (inside, rest) => (c :: inside, rest)

/-- What a text between braces behind a dollar sign stands for. -/
def braced (quoted : Bool) (cs : List Char) : Piece :=
  match cs with
  | '#' :: c :: rest =>
    match bracedName? (c :: rest) with
    | some (name, []) => .parameter name .length quoted
    | _ => .senseless
  | _ =>
    match bracedName? cs with
    | none => .senseless
    | some (name, suffix) =>
      let instead (mark : Char) (orEmpty : Bool) (source : List Char) : Piece :=
        if "-=+?".toList.contains mark then .parameter name (.instead mark orEmpty source) quoted
        else .senseless
      match suffix with
      | [] => .parameter name .plain quoted
      | '%' :: '%' :: source => .parameter name (.trimmed true true source) quoted
      | '%' :: source => .parameter name (.trimmed true false source) quoted
      | '#' :: '#' :: source => .parameter name (.trimmed false true source) quoted
      | '#' :: source => .parameter name (.trimmed false false source) quoted
      | ':' :: mark :: source => instead mark true source
      | mark :: source => instead mark false source

/-- What a dollar sign begins, and what follows it. A dollar sign before anything else is a
character. -/
def dollar (quoted : Bool) (cs : List Char) : Except Fault (Piece × List Char) :=
  match cs with
  | '(' :: '(' :: rest =>
    match closing? true '(' ')' 0 .plain rest with
    | some (inside, ')' :: rest) => .ok (.arithmetic inside, rest)
    | _ => .error .unclosedArithmetic
  | '(' :: rest =>
    match closing? true '(' ')' 0 .plain rest with
    | some (inside, rest) => .ok (.output inside quoted, rest)
    | none => .error (.unexpected "end of file" (some "\")\""))
  | '{' :: rest =>
    match closing? (!quoted) '{' '}' 0 .plain rest with
    | some (inside, rest) => .ok (braced quoted inside, rest)
    | none => .error (if quoted then .unterminated else .unclosedBrace)
  | _ =>
    match parameterName? cs with
    | some (name, rest) => .ok (.parameter name .plain quoted, rest)
    | none => .ok (.text ['$'] quoted, cs)

/-! ## Words -/

/-- Where a word stands. -/
inductive Setting where
  /-- In a line, where blanks and operators end it. -/
  | line
  /-- Between double quotes, of which the second one ends it. -/
  | quotes
  /-- Between braces that stand in a line. -/
  | braces
  /-- Between braces that stand between double quotes. Double quotes in it count for nothing. -/
  | inner
  /-- In a document, where double quotes are characters like others. -/
  | document
deriving DecidableEq

/-- Quotes have their meaning here. -/
def Setting.isBare : Setting → Bool
  | line | braces => true
  | _ => false

/-- The characters that lose their meaning behind a backslash between quotes. -/
def Setting.escapable : Setting → List Char
  | inner => "$`\"\\\x7d".toList
  | document => "$`\\".toList
  | _ => "$`\"\\".toList

namespace Word

/-- Puts a piece in front of a word. Texts that meet become one. -/
def cons (p : Piece) (w : Word) : Word :=
  match p, w with
  | .text cs quoted, .text ds quoted' :: rest =>
    if quoted = quoted' then .text (cs ++ ds) quoted :: rest else p :: w
  | _, _ => p :: w

/-- A character that ends a word. -/
def isEnd (c : Char) : Bool := " \t\n;&|<>()".toList.contains c

mutual

/-- Reads a word in at most so many steps. -/
def readFrom (setting : Setting) : Nat → List Char → Except Fault (Word × List Char)
  | 0, cs => .ok ([], cs)
  | _, [] => if setting = .quotes then .error .unterminated else .ok ([], [])
  | n + 1, c :: cs =>
    if setting = .quotes && c == '"' then .ok ([], cs)
    else if setting = .line && isEnd c then .ok ([], c :: cs)
    else do
      let (pieces, rest) ← readPieces setting n c cs
      let (more, rest) ← readFrom setting n rest
      return (pieces.foldr cons more, rest)

/-- The pieces that a character begins. -/
def readPieces (setting : Setting) (n : Nat) (c : Char) (cs : List Char) :
    Except Fault (Word × List Char) :=
  match c, cs with
  | '\\', '\n' :: rest => .ok ([], rest)
  | '\\', c :: rest =>
    if setting.isBare || setting.escapable.contains c then .ok ([.text [c] true], rest)
    else .ok ([.text ['\\', c] true], rest)
  | '\\', [] => .ok ([.text ['\\'] true], [])
  | '`', _ =>
    match backquoted? (!setting.isBare) cs with
    | some (inside, rest) => .ok ([.output inside (!setting.isBare)], rest)
    | none => .error .unclosedBackquote
  | '$', _ => (dollar (!setting.isBare) cs).map fun (piece, rest) => ([piece], rest)
  | '\'', _ =>
    if !setting.isBare then .ok ([.text [c] true], cs)
    else match cs.dropWhile (· != '\'') with
      | _ :: rest => .ok ([.text (cs.takeWhile (· != '\'')) true], rest)
      | [] => .error .unterminated
  | '"', _ =>
    match setting with
    | .inner => .ok ([], cs)
    | .document | .quotes => .ok ([.text [c] true], cs)
    | _ => (readFrom .quotes n cs).map fun (inside, rest) =>
      (if inside.isEmpty then [.text [] true] else inside, rest)
  | _, _ => .ok ([.text [c] (!setting.isBare)], cs)

end

/-- The word in front of a text, and what follows it. -/
def read (setting : Setting) (cs : List Char) : Except Fault (Word × List Char) :=
  readFrom setting (2 * cs.length + 2) cs

/-- The characters of a word without quotes or anything to be replaced. -/
def plain? : Word → Option (List Char)
  | [] => some []
  | .text cs false :: rest => (plain? rest).map (cs ++ ·)
  | _ => none

/-- The characters of a word without anything to be replaced, and whether there are quotes. -/
def literal : Word → List Char × Bool
  | [] => ([], false)
  | .text cs quoted :: rest =>
    let (more, anyQuoted) := literal rest
    (cs ++ more, quoted || anyQuoted)
  | _ :: rest => literal rest

end Word

end Stepwise.Host.Shell
