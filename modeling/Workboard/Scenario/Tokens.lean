import Workboard.Scenario.Report
import Workboard.Auth.Credentials

/-!
Scenarios of tokens and of the headers that bring them.
-/

namespace Workboard.Scenario

open Json

def asHeaderName (v : Value) : Option String := (asText v).map String.toLower

def readHeader (v : Value) : Got (String × Bytes) := do
  match v with
  | .array [name, value] => return (← need "header" (asHeaderName name), ← need "header" (asBytes value))
  | _ => .error "header"

def claimsValue (c : Claims) : Value :=
  obj [("user_id", uuid c.userId.uuid), ("exp", .int c.expires)]

def runVerify (v : Value) : Got Value := do
  let now ← wallClock
  return result apiError claimsValue
    (Credentials.verify (← get v "secret" asText) (← get v "token" asText) now.unixSeconds)

def runCredentials (v : Value) : Got Value := do
  let now ← wallClock
  return result apiError (fun u : UserId => uuid u.uuid)
    (Credentials.ofHeaders (← get v "secret" asText) (← listOf v "headers" readHeader)
      now.unixSeconds)

/-- The JSON value in a part of a token. -/
def tokenPart (token : String) (n : Nat) : Got Value := do
  let part ← need "token" ((token.splitOn ".")[n]?)
  let bs ← need "token" (Base64Url.decode? part.toList)
  need "token" (Value.ofBytes? bs)

def runIssue (v : Value) : Got Value := do
  let now ← wallClock
  let secret ← get v "secret" asText
  let hours ← getD v "hours" asInt 1
  match Token.issue? secret ⟨← get v "user" asUuid⟩ hours now with
  | none => return kindOnly "Panic"
  | some token =>
    let claims ← tokenPart token 1
    let names := match claims with
      | .object ms => ms.map (·.1)
      | _ => []
    let expected := now.unixSeconds + hours * 3600
    let verified := match Credentials.verify secret token now.unixSeconds with
      | .ok c => obj [("user_id", uuid c.userId.uuid)]
      | .error e => apiError e
    return obj [("header", ← tokenPart token 0), ("claims", list str (sortTexts names)),
      ("user_id", ← get claims "user_id" some),
      ("exp_ok", .bool ((← get claims "exp" asInt) == expected)), ("verified", verified)]

end Workboard.Scenario
