import Stepwise.Cause

/-!
# Screening of expressions and commands

Expressions that name host capabilities and commands that name destructive programs are refused by
their text alone, before they are read. Both screens try their patterns in a fixed order and report
the first that occurs anywhere.

* `found_of_suffix`: a pattern that matches whatever stands before it is found behind any text.
-/

namespace Stepwise.Screen

open Text

/-- A pattern: whether it matches where the text is cut into the character before the cut and what
follows it. -/
abbrev Pattern := Option Char → List Char → Bool

/-- The pattern matches somewhere. -/
def found (p : Pattern) (before : Option Char) : List Char → Bool
  | [] => p before []
  | c :: cs => p before (c :: cs) || found p (some c) cs

/-- A text, as it stands. -/
def literal (text : String) : Pattern := fun _ cs => text.toList.isPrefixOf cs

/-- A text in capitals, small letters or both. -/
def anyCase (text : String) : Pattern := fun _ cs =>
  text.toList.isPrefixOf ((cs.take text.length).map Char.toLower)

/-- One of the words, blanks, and a mark. -/
def wordsThen (words : List String) (mark : Char) : Pattern := fun _ cs =>
  words.any fun word =>
    match behind? word.toList cs with
    | some rest => (rest.dropWhile isBlank).head? == some mark
    | none => false

/-- One of the words between word boundaries. -/
def wholeWord (words : List String) : Pattern := fun before cs =>
  !before.any isWord && words.any fun word =>
    match behind? word.toList cs with
    | some rest => !rest.head?.any isWord
    | none => false

/-- What expressions must not contain, and how it is called. -/
def expressionPatterns : List (Pattern × String) :=
  [(literal "__", "double underscore access"),
   (anyCase "import", "import"),
   (wholeWord ["from"], "from"),
   (wordsThen ["exec", "eval", "compile"] '(', "code execution call"),
   (wholeWord ["exec", "eval", "compile"], "code execution builtin"),
   (wordsThen ["os", "sys"] '.', "os/sys access"),
   (wholeWord ["open", "file", "input"], "file or input primitive"),
   (wholeWord ["globals", "locals", "dir", "getattr", "setattr", "delattr", "vars", "breakpoint"],
     "reflection")]

/-- Refuses an expression that matches a pattern. -/
def expression (text : String) : Except Cause Unit :=
  match expressionPatterns.find? fun p => found p.1 none text.toList with
  | some (_, label) => .error (.unsafeExpression label)
  | none => .ok ()

/-- The small form of a character, as far as letters of ASCII come out of it: besides the capitals
these are the Kelvin sign and the dotted capital I, whose small form is an i with a dot above. -/
def smallForm (c : Char) : List Char :=
  if c == '\u212a' then ['k']
  else if c == '\u0130' then ['i', '\u0307']
  else [c.toLower]

/-- What commands must not contain, in small letters. -/
def commandPatterns : List String :=
  ["rm -rf", "format", "shutdown", "reboot", "sudo", "chmod 777", "mkfs", "dd if=", "> /dev/"]

/-- The patterns that occur in a command whatever its case. -/
def commandMatches (text : String) (pattern : String) : Bool :=
  occursIn pattern.toList (text.toList.flatMap smallForm)

/-- Refuses a command that contains a pattern in any case. -/
def command (text : String) : Except Cause Unit :=
  match commandPatterns.find? (commandMatches text) with
  | some pattern => .error (.unsafeCommand pattern)
  | none => .ok ()

/-! ## Finding -/

theorem found_of_suffix {p : Pattern} {cs : List Char} (h : ∀ before, p before cs = true) :
    ∀ (pre : List Char) (before : Option Char), found p before (pre ++ cs) = true
  | [], before => by cases cs <;> simp [found, h before]
  | c :: pre, before => by
    simp only [List.cons_append, found, found_of_suffix h pre (some c), Bool.or_true]

end Stepwise.Screen
