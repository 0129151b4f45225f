import Stepwise.Json.Print
import Stepwise.Text.Blank
import Stepwise.Text.Utf8
import Stepwise.Url.Percent

/-!
# Parts of requests made from data

Headers, cookies, query parameters and forms are written by scripts as dictionaries of arbitrary
values. A string stands for itself, nothing for the empty text, and every other value for its
compact form.
-/

namespace Stepwise.Http

/-- The text a value stands for in a header, a query or a form. -/
def scalar : Value → String
  | .str s => s
  | .null => ""
  | v => Json.compact v

/-- The entries as pairs of texts. -/
def pairs (entries : Entries Value) : List (String × String) :=
  entries.map fun entry => (entry.1, scalar entry.2)

/-- The value of a cookie header. -/
def cookies (entries : Entries Value) : String :=
  String.intercalate "; " ((pairs entries).map fun p => p.1 ++ "=" ++ p.2)

/-- A byte in a form: letters, digits and a few marks stand as they are, a blank becomes a plus. -/
def formByte (byte : UInt8) : List Char :=
  let c := Char.ofNat byte.toNat
  if c.isAlphanum || c == '*' || c == '-' || c == '.' || c == '_' then [c]
  else if c == ' ' then ['+']
  else Url.Percent.byte byte

/-- A text in a form. -/
def formText (s : String) : String := String.ofList ((Utf8.encode s).flatMap formByte)

/-- Pairs of texts as a form. -/
def form (ps : List (String × String)) : String :=
  String.intercalate "&" (ps.map fun p => formText p.1 ++ "=" ++ formText p.2)

/-- A content type that names JSON, in itself or by its suffix. -/
def isJsonContentType (contentType : String) : Bool :=
  let essence :=
    (Text.trimChars (contentType.toList.takeWhile (· != ';'))).map Char.toLower
  essence == "application/json".toList || "+json".toList.isSuffixOf essence

/-- Headers as data: one entry a name, in the order of first appearance, and the values of a
repeated name joined. -/
def headersValue (headers : List (String × List UInt8)) : Value :=
  let add (entries : Entries Value) (header : String × List UInt8) : Entries Value :=
    let name := Text.asciiLower header.1
    let text := Utf8.decode header.2
    match entries.get? name with
    | some (.str earlier) => entries.insert name (.str (earlier ++ ", " ++ text))
    | _ => entries.insert name (.str text)
  .dict (headers.foldl add [])

end Stepwise.Http
