import Stepwise.Url.Address
import Stepwise.Url.Domain

/-!
# URLs

A URL is read from text into its parts, each brought into one form, and written back from them. The
special schemes have a host and a path of segments; other schemes may have no host, or a path that
is one opaque text.

* `Url.parse`: reads an absolute URL.
* `Url.toText`: writes a URL.
* `Url.withQuery`: a URL with more pairs in its query.
-/

namespace Stepwise

/-- A URL. -/
structure Url where
  scheme : List Char
  username : List Char := []
  password : List Char := []
  /-- The host in its written form, where there is one. -/
  host : Option (List Char) := none
  port : Option Nat := none
  path : List Char := []
  query : Option (List Char) := none
  fragment : Option (List Char) := none

namespace Url

/-! ## Schemes -/

/-- The port a special scheme uses unless told otherwise. -/
def defaultPort? (scheme : List Char) : Option Nat :=
  match String.ofList scheme with
  | "http" | "ws" => some 80
  | "https" | "wss" => some 443
  | "ftp" => some 21
  | _ => none

/-- The scheme of files. -/
def isFile (scheme : List Char) : Bool := scheme == "file".toList

/-- A scheme with a host and a path of segments. -/
def isSpecial (scheme : List Char) : Bool := (defaultPort? scheme).isSome || isFile scheme

/-- A character of a scheme behind its first letter. -/
def isSchemeChar (c : Char) : Bool := c.isAlphanum || c == '+' || c == '-' || c == '.'

/-- The scheme a text begins with, and what follows its colon. -/
def scheme? (cs : List Char) : Option (List Char × List Char) :=
  if cs.head?.any Char.isAlpha then
    match cs.dropWhile isSchemeChar with
    | ':' :: rest => some ((cs.takeWhile isSchemeChar).map Char.toLower, rest)
    | _ => none
  else none

/-! ## Host and port -/

/-- A character at which host and port end. -/
def endsAuthority (special : Bool) (c : Char) : Bool :=
  c == '/' || c == '?' || c == '#' || (special && c == '\\')

/-- The host a text begins with, and what follows it. A colon in brackets belongs to the host. -/
def takeHost (special bracket : Bool) : List Char → List Char × List Char
  | [] => ([], [])
  | c :: cs =>
    if endsAuthority special c || (c == ':' && !bracket) then ([], c :: cs)
    else
      let bracket := if c == '[' then true else if c == ']' then false else bracket
      let (host, rest) := takeHost special bracket cs
      (c :: host, rest)

/-- An address in brackets. -/
def bracketed (cs : List Char) : Except Fault (List Char) :=
  if cs.getLast? == some ']' then
    (Address.ipv6? (cs.drop 1).dropLast).map fun groups =>
      '[' :: (Address.writeIpv6 groups).toList ++ [']']
  else .error .badIpv6

/-- The host of a special URL in its written form. -/
def specialHost (cs : List Char) : Except Fault (List Char) :=
  if cs.head? == some '[' then bracketed cs
  else do
    let name ← Domain.ascii? cs
    if name.isEmpty then .error .emptyHost
    else if Address.endsInNumber name then
      return (Address.writeIpv4 (← Address.ipv4? name)).toList
    else return name

/-- The host of another URL in its written form. -/
def opaqueHost (cs : List Char) : Except Fault (List Char) :=
  if cs.head? == some '[' then bracketed cs
  else if cs.any fun c => c == '\x00' || " #/:<>?@[\\]^|".toList.contains c then
    .error .badCharacter
  else .ok (Percent.encode (fun c => 32 ≤ c.toNat && c.toNat < 127) cs)

/-- Reads a port, and returns what follows it. The default port is left out. -/
def readPort (scheme cs : List Char) : Except Fault (Option Nat × List Char) :=
  let digits := cs.takeWhile Char.isDigit
  let rest := cs.dropWhile Char.isDigit
  let port := digits.foldl (fun n c => 10 * n + (c.toNat - 48)) 0
  if 65535 < port then .error .badPort
  else if rest.head?.any fun c => !endsAuthority true c then .error .badPort
  else .ok (if digits.isEmpty || defaultPort? scheme == some port then none else some port, rest)

/-- What stands before the last at sign, and what follows it. -/
def userinfo? (authority : List Char) : Option (List Char × List Char) :=
  let behind := (authority.reverse.takeWhile (· != '@')).reverse
  if behind.length = authority.length then none
  else some (authority.take (authority.length - behind.length - 1), behind)

/-- Reads user, host and port, and returns what follows them. -/
def readAuthority (scheme cs : List Char) : Except Fault (Url × List Char) := do
  let special := isSpecial scheme
  let authority := cs.takeWhile (!endsAuthority special ·)
  let rest := cs.dropWhile (!endsAuthority special ·)
  let (user, cs) :=
    match userinfo? authority with
    | some (user, behind) => (some user, behind ++ rest)
    | none => (none, cs)
  if user.isSome && cs.head?.any (endsAuthority special) && user == some [] then
    throw Fault.emptyHost
  let user := user.getD []
  let username := Percent.encode Percent.userinfo (user.takeWhile (· != ':'))
  let password := Percent.encode Percent.userinfo ((user.dropWhile (· != ':')).drop 1)
  let (host, rest) := takeHost special false cs
  if special && host.isEmpty then throw Fault.emptyHost
  let host ← if special then specialHost host else opaqueHost host
  if host.isEmpty && rest.head? == some ':' then throw Fault.emptyHost
  let (port, rest) ←
    match rest with
    | ':' :: rest => readPort scheme rest
    | rest => pure (none, rest)
  if host.isEmpty && !(username.isEmpty && password.isEmpty) then throw Fault.emptyHost
  return ({ scheme, username, password, port, host := some host }, rest)

/-! ## Path, query and fragment -/

/-- A segment that stands for its own directory. -/
def isDot (segment : List Char) : Bool :=
  [".", "%2e"].contains (String.ofList (segment.map Char.toLower))

/-- A segment that stands for the directory above. -/
def isDoubleDot (segment : List Char) : Bool :=
  ["..", ".%2e", "%2e.", "%2e%2e"].contains (String.ofList (segment.map Char.toLower))

/-- A letter of a drive and its mark. -/
def isDrive : List Char → Bool
  | [c, d] => c.isAlpha && (d == ':' || d == '|')
  | _ => false

/-- Adds segments to those of a path, which stand in reverse. -/
def climb (file : Bool) (above : List (List Char)) : List (List Char) → List (List Char)
  | [] => above.reverse
  | segment :: rest =>
    if isDoubleDot segment then
      let above := if file && above.length == 1 && above.any isDrive then above else above.drop 1
      climb file (if rest.isEmpty then [] :: above else above) rest
    else if isDot segment then climb file (if rest.isEmpty then [] :: above else above) rest
    else if file && above.isEmpty && isDrive segment then
      climb file ((segment.take 1 ++ [':']) :: above) rest
    else climb file (segment :: above) rest

/-- A path of segments in its written form. -/
def segmentedPath (scheme cs : List Char) : List Char :=
  let special := isSpecial scheme
  let cs := if special then cs.map fun c => if c == '\\' then '/' else c else cs
  let cs := if cs.head? == some '/' then cs.drop 1 else cs
  let segments := climb (isFile scheme) [] ((Percent.encode Percent.path cs).splitOn '/')
  let segments :=
    if isFile scheme && segments.any (!·.isEmpty) then segments.dropWhile (·.isEmpty)
    else if isFile scheme then [[]]
    else segments
  '/' :: List.intercalate ['/'] segments

/-- A URL with the query and the fragment a text begins with. -/
def withRest (url : Url) (cs : List Char) : Url :=
  let fragment? (cs : List Char) : Option (List Char) :=
    match cs with
    | '#' :: rest => some (Percent.encode Percent.fragment rest)
    | _ => none
  match cs with
  | '?' :: rest =>
    let mayStand := if isSpecial url.scheme then Percent.specialQuery else Percent.query
    { url with
      query := some (Percent.encode mayStand (rest.takeWhile (· != '#')))
      fragment := fragment? (rest.dropWhile (· != '#')) }
  | _ => { url with fragment := fragment? cs }

/-- A character of a path. -/
def isPathChar (c : Char) : Bool := c != '?' && c != '#'

/-- A URL with the path, the query and the fragment that make up a text. -/
def withPath (url : Url) (cs : List Char) : Url :=
  let path := cs.takeWhile isPathChar
  let path :=
    if path.isEmpty && !isSpecial url.scheme then [] else segmentedPath url.scheme path
  withRest { url with path } (cs.dropWhile isPathChar)

/-- Reads the part of a file's URL behind its scheme. -/
def readFile (scheme cs : List Char) : Except Fault Url := do
  let isSlash (c : Char) : Bool := c == '/' || c == '\\'
  let url : Url := { scheme, host := some [] }
  if cs.length < 2 || !(cs.take 2).all isSlash then return withPath url cs
  let host := (cs.drop 2).takeWhile (!endsAuthority true ·)
  let rest := (cs.drop 2).dropWhile (!endsAuthority true ·)
  if isDrive host then return withPath url (cs.drop 2)
  if host.isEmpty then return withPath url rest
  let host ← specialHost host
  return withPath { url with host := some (if host == "localhost".toList then [] else host) } rest

/-- The part of a URL that is left of the text given: neither control characters and blanks at its
ends, nor tabs and line ends anywhere. -/
def cleaned (text : String) : List Char :=
  let isEdge (c : Char) : Bool := c.toNat ≤ 32
  let cs := text.toList.dropWhile isEdge
  ((cs.reverse.dropWhile isEdge).reverse).filter fun c => c != '\t' && c != '\n' && c != '\r'

/-- Reads an absolute URL. -/
def parse (text : String) : Except Fault Url :=
  match scheme? (cleaned text) with
  | none => .error .noScheme
  | some (scheme, cs) =>
    if isFile scheme then readFile scheme cs
    else if isSpecial scheme then do
      let (url, rest) ← readAuthority scheme (cs.dropWhile fun c => c == '/' || c == '\\')
      return withPath url rest
    else
      match cs with
      | '/' :: '/' :: rest => do
        let (url, rest) ← readAuthority scheme rest
        return withPath url rest
      | '/' :: _ => return withPath { scheme } cs
      | _ =>
        let path := Percent.encode (fun c => 32 ≤ c.toNat && c.toNat < 127) (cs.takeWhile isPathChar)
        return withRest { scheme, path } (cs.dropWhile isPathChar)

/-! ## Writing -/

/-- A URL as text. -/
def toText (url : Url) : String :=
  let authority :=
    match url.host with
    | none => if "//".toList.isPrefixOf url.path then ['/', '.'] else []
    | some host =>
      let user :=
        if url.username.isEmpty && url.password.isEmpty then []
        else
          url.username ++ (if url.password.isEmpty then [] else ':' :: url.password) ++ ['@']
      let port := match url.port with
        | some n => ':' :: Nat.toDigits 10 n
        | none => []
      ['/', '/'] ++ user ++ host ++ port
  String.ofList
    (url.scheme ++ [':'] ++ authority ++ url.path ++ (url.query.map ('?' :: ·)).getD []
      ++ (url.fragment.map ('#' :: ·)).getD [])

/-- A URL without the name and the password of a user. -/
def withoutUser (url : Url) : Url := { url with username := [], password := [] }

/-- A URL with a form added to its query. -/
def withQuery (url : Url) (form : String) : Url :=
  let query :=
    match url.query with
    | none | some [] => form.toList
    | some earlier => earlier ++ '&' :: form.toList
  { url with query := some query }

end Url

end Stepwise
