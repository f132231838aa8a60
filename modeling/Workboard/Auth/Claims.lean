import Workboard.Json.Fields

/-!
What a token says about its bearer, and what of it decides whether the token is taken.
-/

namespace Workboard

/-- A user, and the last second in which the token holds. -/
structure Claims where
  userId : UserId
  expires : Int
  deriving DecidableEq

namespace Claims

open Json

def toValue (c : Claims) : Value := .object [("user_id", .uuid c.userId.uuid), ("exp", .int c.expires)]

def toBytes (c : Claims) : Bytes := c.toValue.print

def ofNode? (v : Node) : Option Claims := do
  let f ← Fields.ofNode? ["user_id", "exp"] v
  let user ← f.required? 0 "user_id" Node.uuid?
  let expires ← f.required? 1 "exp" Node.int64?
  some ⟨⟨user⟩, expires⟩

end Claims

/-- The claims that are looked at when a token is judged. A time that is not a number without sign does
not count as given. -/
structure JudgedClaims where
  expires : Option Nat
  /-- Whether the token names those it is meant for. -/
  hasAudience : Bool
  deriving DecidableEq

namespace JudgedClaims

open Json

/-- Deepest nesting of the values that are kept while the claims are read. -/
def depth : Nat := 126

/-- A value that may be skipped although it is not of the kind that is asked for. -/
def skipsTime : Node → Bool
  | .array items => items.isEmpty
  | .object ms => ms.isEmpty
  | .string body => (textOfBody? body).isSome
  | _ => true

def skipsSubject : Node → Bool
  | .array _ => false
  | .object _ => false
  | .string body => (textOfBody? body).isSome
  | _ => true

def keeps (v : Node) : Bool :=
  match v with
  | .number _ => true
  | v => (Value.ofNode? depth v).isSome

/-- An audience is a text or a list of texts. -/
def isAudience : Node → Bool
  | .string _ => true
  | .array items => items.all fun v => v.text?.isSome
  | _ => false

def holds (f : Fields) (place : Nat) (name : String) (p : Node → Bool) : Bool :=
  match f.get? place name with
  | some v => p v
  | none => true

def ofNode? (v : Node) : Option JudgedClaims := do
  let f ← Fields.ofNode? ["exp", "nbf", "sub", "iss", "aud"] v
  guard (holds f 0 "exp" skipsTime && holds f 1 "nbf" skipsTime && holds f 2 "sub" skipsSubject &&
    holds f 3 "iss" keeps && holds f 4 "aud" keeps)
  let expires := (f.get? 0 "exp").bind Node.nat64?
  let audience := ((f.get? 4 "aud").map isAudience).getD false
  some ⟨expires, audience⟩

end JudgedClaims

end Workboard
