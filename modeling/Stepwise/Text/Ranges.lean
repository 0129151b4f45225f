/-!
# Sets of characters given by ranges of code points

The character classes of the Unicode standard are written as lists of closed ranges, in which
`Ranges.contains` looks a character up.
-/

namespace Stepwise.Text

/-- Closed ranges of code points, first and last included. -/
abbrev Ranges := List (Nat × Nat)

/-- A code point lies in one of the ranges. -/
def Ranges.contains (ranges : Ranges) (code : Nat) : Bool :=
  ranges.any fun range => range.1 ≤ code && code ≤ range.2

end Stepwise.Text
