import Stepwise.Text.Small
import Stepwise.Text.Utf8
import Stepwise.Text.Visible
import Stepwise.Url.Fault
import Stepwise.Url.Percent
import Stepwise.Url.Punycode

/-!
# Domain names

The name of a host is brought into one form: percent signs decoded, capitals made small, full-width
forms made plain, and labels beyond ASCII written in Punycode. Names with control characters, blanks
or the delimiters of URLs are refused.
-/

namespace Stepwise.Url.Domain

open Text

/-- A delimiter, blank or control character that no name may hold. -/
def isForbidden (c : Char) : Bool :=
  c.toNat ≤ 32 || c.toNat == 127 || "%#/:<>?@[\\]^|".toList.contains c

/-- A character that leaves no trace in a name. -/
def isIgnored (c : Char) : Bool :=
  let n := c.toNat
  n == 0xAD || n == 0x34F || (0x180B ≤ n && n ≤ 0x180F) || n == 0x200B || n == 0x2060 || n == 0x2064
    || (0xFE00 ≤ n && n ≤ 0xFE0F) || n == 0xFEFF || (0xE0100 ≤ n && n ≤ 0xE01EF)

/-- The form of a character in a name: small, of plain width, and a full stop for its kin. -/
def fold (c : Char) : Char :=
  let n := c.toNat
  if 0xFF01 ≤ n && n ≤ 0xFF5E then (Char.ofNat (n - 0xFEE0)).toLower
  else if n == 0x3002 || n == 0xFF61 then '.'
  else toSmall c

/-- The characters may make up a label beyond ASCII. -/
def isLabel (cs : List Char) : Bool :=
  cs.all (fun c => !unprintableRanges.contains c.toNat) &&
    !(cs.head?.any fun c => graphemeExtendRanges.contains c.toNat)

/-- A label in ASCII. What claims to be in Punycode must be it. -/
def label? (cs : List Char) : Option (List Char) :=
  if cs.all (·.toNat < 128) then
    match cs with
    | 'x' :: 'n' :: '-' :: '-' :: code =>
      match Punycode.decode code with
      | some decoded =>
        if decoded.any (128 ≤ ·.toNat) && decoded.map fold == decoded && isLabel decoded
            && Punycode.encode decoded == code then some cs
        else none
      | none => none
    | _ => some cs
  else if isLabel cs then some ("xn--".toList ++ Punycode.encode cs)
  else none

/-- The name of a host in ASCII. -/
def ascii? (host : List Char) : Except Fault (List Char) :=
  let cs := ((Utf8.decode (Percent.decode host)).toList.filter (!isIgnored ·)).map fold
  if cs.any fun c => isForbidden c || c == Utf8.replacement then .error .badName
  else
    match (cs.splitOn '.').mapM label? with
    | some labels => .ok (List.intercalate ['.'] labels)
    | none => .error .badName

end Stepwise.Url.Domain
