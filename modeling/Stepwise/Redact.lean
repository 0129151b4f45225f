import Stepwise.Text.Blank
import Stepwise.Text.Word

/-!
# Secrets in diagnostics

Diagnostics are cleared of what looks like a secret: credentials behind an authorization header or
an API key, and values assigned to names that end in a word such as TOKEN. Four passes go over the
text one after the other; each keeps the name and replaces the value. What is still too long is cut
afterwards, so that a cut never separates a value from its name.

* `redact`: the text without secrets.
* `cap`: the same, cut to a number of characters.
-/

namespace Stepwise.Redact

open Text

/-- The character is this small letter, a capital of it, or one of the two letters that fold to
one: the Kelvin sign to k, and the long s to s. -/
def isLetter (letter c : Char) : Bool :=
  c.toLower == letter || (letter == 'k' && c == '\u212a') || (letter == 's' && c == '\u017f')

/-- What follows the text, in any case, at the beginning of the characters. -/
def after? : List Char → List Char → Option (List Char)
  | [], cs => some cs
  | _ :: _, [] => none
  | p :: ps, c :: cs => if isLetter p c then after? ps cs else none

/-- A secret: how many characters of the text are kept and how many after them are replaced, when
one stands at its beginning. -/
abbrev Pattern := List Char → Option (Nat × Nat)

/-- A name kept, and a value of at least one character that is replaced. -/
def secret (name : List Char) (value : List Char → Nat) : Pattern := fun cs =>
  (after? name cs).bind fun rest =>
    let n := value rest
    if n = 0 then none else some (name.length, n)

/-- A character of credentials. -/
def isCredential (c : Char) : Bool :=
  isWord c || c == '-' || c == '.' || c == '=' || c == ':' || c == '/' || c == '+'

/-- The length of credentials, with the scheme that may stand before them. -/
def credentials (cs : List Char) : Nat :=
  let run (cs : List Char) := (cs.takeWhile isCredential).length
  let schemes := ["bearer ", "basic "]
  let withScheme := schemes.findSome? fun scheme =>
    (after? scheme.toList cs).bind fun rest =>
      if run rest = 0 then none else some (scheme.length + run rest)
  withScheme.getD (run cs)

/-- The length of the characters up to a blank. -/
def unbroken (cs : List Char) : Nat := (cs.takeWhile (!isBlank ·)).length

/-- The first of the patterns that matches. -/
def anyOf (patterns : List Pattern) : Pattern := fun cs => patterns.findSome? (· cs)

/-- What is replaced, pass by pass. -/
def passes : List Pattern :=
  [secret "authorization: ".toList credentials,
   anyOf (["api-key: ", "api_key: ", "apikey: "].map fun name =>
     secret name.toList fun cs => (cs.takeWhile fun c => !isBlank c && c != ',').length),
   anyOf (["key=", "token=", "secret=", "password="].map fun name =>
     secret name.toList unbroken),
   secret "database_url=".toList unbroken]

/-- What stands in the place of a secret. -/
def mark : List Char := "<redacted>".toList

/-- Replaces the secrets a pattern finds, from left to right; `skip` characters are dropped
first. -/
def replaceFrom (pattern : Pattern) : Nat → List Char → List Char
  | _, [] => []
  | skip + 1, _ :: cs => replaceFrom pattern skip cs
  | 0, c :: cs =>
    match pattern (c :: cs) with
    | some (kept, dropped) =>
      (c :: cs).take kept ++ mark ++ replaceFrom pattern (kept + dropped - 1) cs
    | none => c :: replaceFrom pattern 0 cs

/-- The characters without secrets. -/
def redactChars (cs : List Char) : List Char :=
  passes.foldl (fun cs pattern => replaceFrom pattern 0 cs) cs

/-- The text without secrets. -/
def redact (text : String) : String := String.ofList (redactChars text.toList)

/-- What stands behind a cut. -/
def cutMark : List Char := "… [truncated]".toList

/-- The text without secrets, cut to so many characters where it has more. -/
def cap (text : String) (limit : Nat) : String :=
  let cs := redactChars text.toList
  if cs.length ≤ limit then String.ofList cs else String.ofList (cs.take limit ++ cutMark)

end Stepwise.Redact
