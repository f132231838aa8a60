import Workboard.Auth.Base64Url
import Workboard.Auth.Claims
import Workboard.Auth.Sha256

/-!
Signed tokens. A token has three parts between dots: a head that names the way of signing, the claims, and
the signature of the two.
-/

namespace Workboard

inductive TokenError where
  | malformed
  | badBase64
  | badJson
  | wrongAlgorithm
  | wrongSignature
  | missingExpiry
  | expired
  | wrongAudience
  deriving DecidableEq

def TokenError.message : TokenError → String
  | .malformed => "InvalidToken"
  | .badBase64 => "Base64 error: not a text of the alphabet"
  | .badJson => "JSON error: not a value of the type"
  | .wrongAlgorithm => "InvalidAlgorithm"
  | .wrongSignature => "InvalidSignature"
  | .missingExpiry => "Missing required claim: exp"
  | .expired => "ExpiredSignature"
  | .wrongAudience => "InvalidAudience"

/-- The ways of signing that have a name. Only the first is in use. -/
inductive TokenAlgorithm where
  | hs256
  | other (name : String)
  deriving DecidableEq

namespace TokenAlgorithm

def otherNames : List String :=
  ["HS384", "HS512", "ES256", "ES384", "RS256", "RS384", "RS512", "PS256", "PS384", "PS512", "EdDSA"]

def ofName? (name : String) : Option TokenAlgorithm :=
  if name = "HS256" then some .hs256
  else if otherNames.contains name then some (.other name)
  else none

open Json

def ofNode? (v : Node) : Option TokenAlgorithm :=
  match v with
  | .object [(key, .null)] => (textOfBody? key).bind ofName?
  | v => v.text?.bind ofName?

end TokenAlgorithm

namespace Token

open Json

/-- The head of every token that is issued. -/
def head : Bytes := (Value.object [("typ", .string "JWT"), ("alg", .string "HS256")]).print

def headFields : List String :=
  ["typ", "alg", "cty", "jku", "jwk", "kid", "x5u", "x5c", "x5t", "x5t#S256"]

/-- A key in a head: an object that names its kind and brings what keys of that kind consist of. -/
def key? (v : Node) : Option Unit := do
  let parts (names : List String) : Option Unit := do
    let f ← Fields.ofNode? ("kty" :: names) v
    let _ ← names.mapM fun n => f.required? 0 n Node.text?
    some ()
  match v with
  | .object _ =>
    let f ← Fields.ofNode? ["kty"] v
    let kind ← f.required? 0 "kty" Node.text?
    match kind with
    | "RSA" => parts ["n", "e"]
    | "EC" => parts ["crv", "x", "y"]
    | "oct" => parts ["k"]
    | "OKP" => parts ["crv", "x"]
    | _ => none
  | _ => none

/-- The way of signing that a head names. Its other fields only have to be of their kinds. -/
def algorithmOf? (v : Node) : Option TokenAlgorithm := do
  let f ← Fields.ofNode? headFields v
  let _ ← f.optional? 0 "typ" Node.text?
  let algorithm ← f.required? 1 "alg" TokenAlgorithm.ofNode?
  let _ ← f.optional? 2 "cty" Node.text?
  let _ ← f.optional? 3 "jku" Node.text?
  let _ ← f.optional? 4 "jwk" key?
  let _ ← f.optional? 5 "kid" Node.text?
  let _ ← f.optional? 6 "x5u" Node.text?
  let _ ← f.optional? 7 "x5c" (Node.items? Node.text?)
  let _ ← f.optional? 8 "x5t" Node.text?
  let _ ← f.optional? 9 "x5t#S256" Node.text?
  some algorithm

def isDot (c : Char) : Bool := c == '.'

/-- What stands before and after the last dot. -/
def splitLast? (cs : List Char) : Option (List Char × List Char) :=
  let after := (cs.reverse.takeWhile fun c => !isDot c).reverse
  match cs.reverse.dropWhile fun c => !isDot c with
  | [] => none
  | _ :: before => some (before.reverse, after)

/-- The text that is signed, and its signature. -/
def signature (secret : String) (signed : List Char) : List Char :=
  Base64Url.encodeChars (Hmac.code (Bytes.ofText secret) (Bytes.ofText (String.ofList signed)))

def sign (secret : String) (claims : Claims) : String :=
  let signed := Base64Url.encodeChars head ++ '.' :: Base64Url.encodeChars claims.toBytes
  String.ofList (signed ++ '.' :: signature secret signed)

/-- A part of a token as a JSON tree. -/
def node? (part : List Char) : Except TokenError Node :=
  match Base64Url.decode? part with
  | none => .error .badBase64
  | some bs =>
    match Node.ofBytes? bs with
    | none => .error .badJson
    | some v => .ok v

def read? {α : Type} (read : Node → Option α) (part : List Char) : Except TokenError α := do
  match read (← node? part) with
  | some a => .ok a
  | none => .error .badJson

/-- A token may be used this many seconds after its time. -/
def leeway : Int := 60

/-- Whether claims hold at a time, in seconds since the start of 1970. -/
def judge (c : JudgedClaims) (now : Int) : Except TokenError Unit :=
  match c.expires with
  | none => .error .missingExpiry
  | some expires =>
    if (expires : Int) < now - leeway then .error .expired
    else if c.hasAudience then .error .wrongAudience
    else .ok ()

/-- The part of the claims of a token whose signature is right. -/
def checked (secret : String) (token : String) : Except TokenError (List Char) := do
  match splitLast? token.toList with
  | none => .error .malformed
  | some (signed, given) =>
    match splitLast? signed with
    | none => .error .malformed
    | some (headPart, claimsPart) =>
      match ← read? algorithmOf? headPart with
      | .other _ => .error .wrongAlgorithm
      | .hs256 => if given = signature secret signed then .ok claimsPart else .error .wrongSignature

/-- The claims of a token that holds at a time. The signature is judged before the claims are read. -/
def verify (secret : String) (token : String) (now : Int) : Except TokenError Claims := do
  let part ← checked secret token
  let claims ← read? Claims.ofNode? part
  judge (← read? JudgedClaims.ofNode? part) now
  return claims

/-- A token for a user that holds for some hours; there is none if the calendar ends before. -/
def issue? (secret : String) (user : UserId) (hours : Int) (now : Instant) : Option String := do
  let until_ ← Instant.ofUnixNanos? ((now.unixSeconds + hours * 3600) * 1000000000 + now.nano)
  return sign secret ⟨user, until_.unixSeconds⟩

end Token

end Workboard
