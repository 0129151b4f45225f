import Stepwise.Action.Kind
import Stepwise.Http.Field
import Stepwise.Json.Parse
import Stepwise.Store
import Stepwise.Url.Basic

/-!
# Requests

A request is made from the fields of a step: its method, URL, headers and body checked and brought
into one form, with the variable that will hold the response. Headers have one value for every
name, whatever its case.

* `Request.ofStep`: the request a step asks for, or what is wrong with it.
* `Request.target`: the URL that is asked for, with the parameters in its query.
* `Response.data`: what the body of a response stands for.
-/

namespace Stepwise.Http

/-- The body of a request. -/
inductive Body where
  | json (v : Value)
  | form (text : String)
  | text (text : String)

/-- A request that can be sent. -/
structure Request where
  method : String
  url : Url
  /-- Values by name in small letters. -/
  headers : Entries String
  params : List (String × String)
  body : Option Body
  proxy : Option String
  timeout : Option Float
  followsRedirects : Bool
  verifiesTls : Bool
  /-- The body of the response is data whatever its content type. -/
  expectsJson : Bool
  /-- The variable for the body of the response. -/
  resultVariable : String

/-- The methods a request may have. -/
def methods : List String := ["GET", "POST", "PUT", "DELETE", "PATCH", "HEAD", "OPTIONS"]

/-- The variables every response sets, which cannot hold its body. -/
def reservedVariables : List String := ["status", "response_headers"]

/-- The variable that always holds the body of the last response. -/
def responseVariable : String := "response"

/-- A character of the name of a header. -/
def isHeaderNameChar (c : Char) : Bool := c.isAlphanum || "!#$%&'*+-.^_`|~".toList.contains c

/-- A name a header can have. -/
def isHeaderName (name : String) : Bool :=
  name.toList.all isHeaderNameChar && !name.isEmpty && name.length < 65536

/-- A character a header's value can hold: no control character but the tab. -/
def isHeaderValueChar (c : Char) : Bool := c == '\t' || (32 ≤ c.toNat && c.toNat != 127)

/-- A value a header can have. -/
def isHeaderValue (value : String) : Bool := value.toList.all isHeaderValueChar

namespace Request

/-- A refusal of a field. -/
def invalid {α : Type} (field reason : String) : Except Cause α :=
  .error (.invalidField Action.Kind.httpRequest.name field reason)

/-- Sets a header that a field asks for. -/
def setHeader (field name value : String) (headers : Entries String) :
    Except Cause (Entries String) :=
  if isHeaderValue value then .ok (headers.insert (Text.asciiLower name) value)
  else invalid field "failed to parse header value"

/-- The headers written as a dictionary. -/
def headersOf (headers : Entries String) : Entries Value → Except Cause (Entries String)
  | [] => .ok headers
  | (name, v) :: rest =>
    if isHeaderName name then do
      headersOf (← setHeader "headers" name v.display headers) rest
    else invalid "headers" "invalid HTTP header name"

/-- All headers of a step: the content type and the cookies in fields of their own go last. -/
def allHeaders (s : Step) : Except Cause (Entries String) := do
  let headers ← headersOf [] (s.entries "headers")
  let headers ←
    match s.text? "content_type" with
    | some value => setHeader "content_type" "content-type" value headers
    | none => pure headers
  let jar := s.entries "cookies"
  if jar.isEmpty then return headers else setHeader "cookies" "cookie" (cookies jar) headers

/-- The body of a request: data in the field for it, or else a form, or else a text. -/
def bodyOf (s : Step) : Option Body :=
  match s.given? "json", s.given? "data" with
  | some v, _ => some (.json v)
  | none, some (.dict entries) => some (.form (Http.form (pairs entries)))
  | none, some v => some (.text v.display)
  | none, none => none

/-- The method a step asks for, in capitals. -/
def methodOf (s : Step) : String := Text.asciiUpper (Text.trim ((s.text? "method").getD "GET"))

/-- The request a step asks for. -/
def ofStep (s : Step) : Except Cause Request := do
  checkFields Action.Kind.httpRequest.fields Action.Kind.httpRequest.name s
  let method := methodOf s
  if !methods.contains method then invalid "method" ("unsupported method '" ++ method ++ "'")
  let url ←
    match Url.parse (Text.trim ((s.text? "url").getD "")) with
    | .ok url => pure url
    | .error fault => invalid "url" fault.message
  let headers ← allHeaders s
  let timeout := s.number? "timeout"
  if timeout.any fun t => !(t.isFinite && 0 < t) then invalid "timeout" "must be a positive number"
  let resultVariable := (s.text? "return_var").getD responseVariable
  if !isIdentifier resultVariable then
    invalid "return_var" ("'" ++ resultVariable ++ "' is not a valid variable name")
  if reservedVariables.contains resultVariable then
    invalid "return_var" ("'" ++ resultVariable ++ "' is reserved")
  return {
    method, url, headers, timeout, resultVariable
    params := pairs (s.entries "params")
    body := bodyOf s
    proxy := (s.text? "proxy").filter (!Text.isAllBlank ·)
    followsRedirects := s.flag "allow_redirects" true
    verifiesTls := s.flag "verify_ssl" true
    expectsJson := s.flag "return_json" }

/-- The URL that is asked for: without the user, who goes into a header, and with the parameters in
the query. -/
def target (r : Request) : Url :=
  let url := r.url.withoutUser
  if r.params.isEmpty then url else url.withQuery (Http.form r.params)

/-- Only these schemes can be asked for. -/
def isSendable (r : Request) : Bool :=
  r.url.scheme == "http".toList || r.url.scheme == "https".toList

/-- A text that names a proxy: a URL with a host, its scheme perhaps left out. -/
def isProxy (text : String) : Bool :=
  let hasHost (u : Url) : Bool := u.host.any (!·.isEmpty)
  match Url.parse text with
  | .ok u =>
    hasHost u ||
      match Url.parse ("http://" ++ text) with
      | .ok u => hasHost u
      | .error _ => false
  | .error .noScheme =>
    match Url.parse ("http://" ++ text) with
    | .ok u => hasHost u
    | .error _ => false
  | .error _ => false

end Request

/-- A response. -/
structure Response where
  status : Nat
  /-- The headers in the order in which they came, names in small letters. -/
  headers : List (String × List UInt8)
  body : List UInt8

namespace Response

/-- The content type says that the body is data. -/
def declaresJson (r : Response) : Bool :=
  match r.headers.find? (·.1 == "content-type") with
  | some (_, bytes) =>
    bytes.all (fun b => b == 9 || (32 ≤ b.toNat && b.toNat < 127)) &&
      isJsonContentType (Utf8.decode bytes)
  | none => false

/-- What the body stands for: data where it has to be, nothing if it is blank then, and otherwise
its text. -/
def data (expectsJson : Bool) (r : Response) : Except Cause Value :=
  let text := Utf8.decode r.body
  if expectsJson || r.declaresJson then
    if Text.isAllBlank text then .ok .null
    else
      match Json.parse text with
      | .ok v => .ok v
      | .error _ =>
        .error (.jsonDecode ("response from status " ++ toString r.status ++ " is not valid JSON"))
  else .ok (.str text)

end Response

end Stepwise.Http
