import Workboard.Text.Basic
import Workboard.Text.Percent
import Workboard.Width

/-!
Addresses of key-value servers as URLs: a host with a port and the number of a database in the path, or
the path of a socket on this machine with the database in the query.
-/

namespace Workboard

inductive ServerAddress where
  | host (name : List Char) (port : Nat) (database : Int)
  | socket (path : List Char) (database : Int)
  deriving DecidableEq

namespace ServerAddress

def isControl (c : Char) : Bool := c.toNat ≤ 0x20

def isLetter (c : Char) : Bool := c.isAlpha

def isSchemeChar (c : Char) : Bool := c.isAlphanum || c == '+' || c == '-' || c == '.'

/-- The scheme in lower case, and what follows its colon. -/
def scheme? (cs : List Char) : Option (String × List Char) :=
  let name := cs.takeWhile isSchemeChar
  match name, cs.dropWhile isSchemeChar with
  | c :: _, ':' :: rest =>
    if isLetter c then some (String.ofList (name.map Char.toLower), rest) else none
  | _, _ => none

/-- Authority, path and query behind the scheme. -/
structure Parts where
  authority : Option (List Char)
  path : List Char
  query : List Char

def Parts.ofChars (cs : List Char) : Parts :=
  let cs := cs.takeWhile (· != '#')
  let isEnd (c : Char) : Bool := c == '/' || c == '?'
  match cs with
  | '/' :: '/' :: rest =>
    let after := rest.dropWhile (!isEnd ·)
    ⟨some (rest.takeWhile (!isEnd ·)), after.takeWhile (· != '?'), (after.dropWhile (· != '?')).drop 1⟩
  | cs => ⟨none, cs.takeWhile (· != '?'), (cs.dropWhile (· != '?')).drop 1⟩

/-- What stands behind the last sign of its kind. -/
def afterLast (mark : Char) (cs : List Char) : List Char :=
  (cs.reverse.takeWhile (· != mark)).reverse

def isHostChar (c : Char) : Bool :=
  !("\x00\t\n\r #/<>?@[\\]^|:".toList.contains c)

/-- Groups of up to four hexadecimal digits with colons between. -/
def groups? (text : String) : Option Nat :=
  if text.isEmpty then some 0
  else
    let groups := (text.splitOn ":").map String.toList
    if groups.all fun g => !g.isEmpty && g.length ≤ 4 && g.all fun c => (hexValue? c).isSome then
      some groups.length
    else none

/-- Whether a text is eight groups, of which two colons may stand for some that are zero. -/
def isSixGroups (cs : List Char) : Bool :=
  match (String.ofList cs).splitOn "::" with
  | [all] => groups? all == some 8
  | [before, after] =>
    match groups? before, groups? after with
    | some m, some n => m + n ≤ 7
    | _, _ => false
  | _ => false

/-- A name and what follows it, or an address of groups in brackets. -/
def hostName? : List Char → Option (List Char × List Char)
  | '[' :: cs =>
    match cs.dropWhile (· != ']') with
    | _ :: rest =>
      let groups := cs.takeWhile (· != ']')
      if isSixGroups groups then some ('[' :: groups ++ [']'], rest) else none
    | [] => none
  | cs =>
    let name := cs.takeWhile (· != ':')
    if name.isEmpty || !name.all isHostChar then none else some (name, cs.dropWhile (· != ':'))

/-- Who asks must be written as text. -/
def isNamed (asker : List Char) : Bool := (Bytes.text? (Percent.decode asker)).isSome

/-- Host and port of an authority; who asks is left out. -/
def hostPort? (authority : List Char) : Option (List Char × Option Nat) := do
  let cs := afterLast '@' authority
  guard (isNamed (authority.take (authority.length - cs.length)))
  let (name, rest) ← hostName? cs
  match rest with
  | [] => some (name, none)
  | [':'] => some (name, none)
  | ':' :: ds => ((natOfDecimal? ds).filter (Width.fits 16)).map fun n => (name, some n)
  | _ => none

def trimSlashes (cs : List Char) : List Char :=
  ((cs.dropWhile (· == '/')).reverse.dropWhile (· == '/')).reverse

def database? (cs : List Char) : Option Int :=
  if cs.isEmpty then some 0
  else (intOfDecimal? cs).filter (Width.fitsSigned 64)

/-- The last value of a name in a query. -/
def queryValue? (query : List Char) (name : String) : Option String :=
  let pairs := (String.ofList query).splitOn "&"
  let values := pairs.filterMap fun p =>
    match p.splitOn "=" with
    | n :: rest => if n = name then some ("=".intercalate rest) else none
    | [] => none
  values.getLast?

def knowsProtocol (query : List Char) : Bool :=
  match queryValue? query "protocol" with
  | none => true
  | some p => ["2", "resp2", "3", "resp3"].contains p

def hostSchemes : List String := ["redis", "valkey"]

def socketSchemes : List String := ["redis+unix", "valkey+unix", "unix"]

def standardPort : Nat := 6379

def ofParts? (scheme : String) (p : Parts) : Option ServerAddress :=
  if !knowsProtocol p.query then none
  else if hostSchemes.contains scheme then do
    let (name, port) ← hostPort? (← p.authority)
    some (.host name (port.getD standardPort) (← database? (trimSlashes p.path)))
  else if socketSchemes.contains scheme then
    let here := p.authority.isNone || p.authority == some [] || p.authority == some "localhost".toList
    if !here || p.path.head? != some '/' then none
    else
      match queryValue? p.query "db" with
      | none => some (.socket p.path 0)
      | some db => if db.isEmpty then none else (database? db.toList).map (.socket p.path)
  else none

def ofUrl? (url : String) : Option ServerAddress := do
  let cs := (url.toList.dropWhile isControl).reverse.dropWhile isControl |>.reverse
  let cs := cs.filter fun c => c != '\t' && c != '\n' && c != '\r'
  let (scheme, rest) ← scheme? cs
  ofParts? scheme (.ofChars rest)

end ServerAddress

end Workboard
