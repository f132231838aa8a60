import Workboard.Auth.Credentials
import Workboard.Http.Body
import Workboard.Text.Basic
import Workboard.Text.Percent

/-!
Media types: a type and a subtype, perhaps with a suffix, and parameters that must be well formed.
-/

namespace Workboard.MediaType

def isTokenChar (c : Char) : Bool :=
  c.isAlphanum || "!#$&-^_.+%'*|~\x60".toList.contains c

def isQuotedChar (c : Char) : Bool := 0x1F < c.toNat && c.toNat != 0x7F

/-- A value in quotes after its opening one; what follows it. -/
def quotedRest? : List Char → Option (List Char)
  | [] => none
  | '"' :: cs => some cs
  | '\\' :: c :: cs => if isQuotedChar c then quotedRest? cs else none
  | c :: cs => if isQuotedChar c then quotedRest? cs else none

/-- What follows the value of a parameter: nothing, or a semicolon and what comes after it. -/
def valueRest? : List Char → Option (Option (List Char))
  | '"' :: cs => do
    let rest ← quotedRest? cs
    match rest.dropWhile (· = ' ') with
    | [] => some none
    | ';' :: cs => some (some cs)
    | _ => none
  | cs =>
    match cs.takeWhile isTokenChar, cs.dropWhile isTokenChar with
    | _, [] => some none
    | _ :: _, ';' :: rest => some (some rest)
    | _, _ => none

/-- Whether a list of parameters is well formed; at most `fuel` of them are looked at. -/
def parametersOk : Nat → List Char → Bool
  | 0, _ => false
  | fuel + 1, cs =>
    let cs := cs.dropWhile (· = ' ')
    match cs.takeWhile isTokenChar, cs.dropWhile isTokenChar with
    | _ :: _, '=' :: rest =>
      match valueRest? rest with
      | some none => true
      | some (some more) => parametersOk fuel more
      | none => false
    | _, _ => false

/-- The type and the rest in lower case, if the whole is well formed. -/
def essence? (s : String) : Option (List Char × List Char) :=
  let cs := s.toList.map Char.toLower
  match cs.takeWhile isTokenChar, cs.dropWhile isTokenChar with
  | t :: ts, '/' :: rest =>
    let sub := rest.takeWhile isTokenChar
    match rest.dropWhile isTokenChar with
    | [] => some (t :: ts, sub)
    | ';' :: more =>
      if !sub.isEmpty && parametersOk (more.length + 1) more then some (t :: ts, sub) else none
    | _ => none
  | _, _ => none

/-- Subtype and suffix, divided at the last plus sign that does not come first. -/
def divide (sub : List Char) : List Char × Option (List Char) :=
  let tail := (sub.reverse.takeWhile (· != '+')).reverse
  let head := sub.take (sub.length - tail.length - 1)
  if tail.length < sub.length && !head.isEmpty then (head, some tail) else (sub, none)

def json : List Char := "json".toList

/-- Whether a text names JSON or a format that is written in JSON. -/
def isJson (s : String) : Bool :=
  match essence? s with
  | some (kind, sub) =>
    let (name, suffix) := divide sub
    kind == "application".toList && (name == json || suffix == some json)
  | none => false

end Workboard.MediaType

/-!
Requests and answers of the HTTP interface, and what handlers take from a request before they act.
-/

namespace Workboard

structure HttpRequest where
  method : String
  path : List Char
  query : List Char
  headers : RequestHeaders
  body : Bytes
  /-- Whether the connection that brought it may turn into a socket. -/
  upgradable : Bool

inductive HttpBody where
  | empty
  | json (v : Json.Value)
  | error (e : ApiError)
  /-- A refusal in words. -/
  | text
  | exposition
  /-- The request was accepted as a socket of this connection. -/
  | socket (connection : Uuid)

structure HttpAnswer where
  status : Nat
  /-- The methods that a path allows, if the request's was not among them. -/
  allow : Option String
  body : HttpBody

namespace HttpAnswer

def ofStatus (status : Nat) : HttpAnswer := ⟨status, none, .empty⟩

def json (status : Nat) (v : Json.Value) : HttpAnswer := ⟨status, none, .json v⟩

def refusal (status : Nat) : HttpAnswer := ⟨status, none, .text⟩

def ofError (e : ApiError) : HttpAnswer := ⟨e.status, none, .error e⟩

def notAllowed (allow : String) : HttpAnswer := ⟨405, some allow, .empty⟩

def isSuccess (a : HttpAnswer) : Bool := 200 ≤ a.status && a.status < 300

/-- The same answer without what it carries. -/
def withoutBody (a : HttpAnswer) : HttpAnswer := { a with body := .empty }

end HttpAnswer

namespace HttpRequest

/-- A request for a target, which is a path and perhaps a query. -/
def ofTarget (method target : String) (headers : RequestHeaders) (body : Bytes) (upgradable : Bool) :
    HttpRequest :=
  let cs := target.toList.takeWhile (· != '#')
  ⟨method, cs.takeWhile (· != '?'), (cs.dropWhile (· != '?')).drop 1, headers, body, upgradable⟩

/-- The token in the query, which must name it once. -/
def queryToken? (r : HttpRequest) : Option String :=
  match (Percent.form r.query).filter fun e => e.1 = "token" with
  | [(_, token)] => some token
  | _ => none

/-- Who sends the request. A header for authorization decides alone; without one the query may bring
the token. -/
def user (r : HttpRequest) (secret : String) (now : Int) : Except ApiError UserId :=
  if r.headers.has Credentials.header then Credentials.ofHeaders secret r.headers now
  else
    match r.queryToken? with
    | some token => (Credentials.verify secret token now).map (·.userId)
    | none => .error Credentials.missing

/-- The identifier in a part of the path. -/
def pathId? (part : String) : Option Uuid :=
  (Bytes.text? (Percent.decode part.toList)).bind Uuid.ofText?

def hasJson (r : HttpRequest) : Bool :=
  ((r.headers.text? "content-type").map MediaType.isJson).getD false

def title (r : HttpRequest) : Except HttpAnswer String :=
  if !r.hasJson then .error (.refusal 415)
  else
    match TitleBody.read r.body with
    | .ok s => .ok s
    | .error .malformed => .error (.refusal 400)
    | .error .unfit => .error (.refusal 422)

/-- Whether a header is a word, in any letter case. -/
def headerIs (r : HttpRequest) (name word : String) : Bool :=
  match (r.headers.first? name).bind Bytes.text? with
  | some s => s.toList.map Char.toLower == word.toList
  | none => false

def headerHolds (r : HttpRequest) (name word : String) : Bool :=
  match (r.headers.first? name).bind Bytes.text? with
  | some s => ((String.ofList (s.toList.map Char.toLower)).splitOn word).length > 1
  | none => false

/-- How the opening of a socket is refused, if it is. -/
def socketRefusal? (r : HttpRequest) : Option HttpAnswer :=
  if r.method != "GET" then some (.refusal 405)
  else if !r.headerHolds "connection" "upgrade" then some (.refusal 400)
  else if !r.headerIs "upgrade" "websocket" then some (.refusal 400)
  else if !r.headers.has "sec-websocket-key" then some (.refusal 400)
  else if !r.headerIs "sec-websocket-version" "13" then some (.refusal 400)
  else if !r.upgradable then some (.refusal 426)
  else none

end HttpRequest

end Workboard
