import Stepwise.Value

/-!
# The variables of a run

Variables stand in the order in which they were first set. Their names are identifiers: a letter of
ASCII or an underscore, and then letters, digits and underscores.
-/

namespace Stepwise

/-- Variables by name. -/
abbrev Store := Entries Value

/-- A character an identifier may begin with. -/
def beginsIdentifier (c : Char) : Bool := c.isAlpha || c == '_'

/-- A character an identifier may go on with. -/
def continuesIdentifier (c : Char) : Bool := c.isAlphanum || c == '_'

/-- The characters are an identifier. -/
def isIdentifierChars : List Char → Bool
  | [] => false
  | c :: cs => beginsIdentifier c && cs.all continuesIdentifier

/-- The text is an identifier. -/
def isIdentifier (text : String) : Bool := isIdentifierChars text.toList

end Stepwise
