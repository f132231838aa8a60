import Workboard.Service.Error
import Workboard.Json.Value

/-!
Errors as clients of the HTTP interface see them: a status, a code, and a message that tells no details of
inner failures.
-/

namespace Workboard

structure ApiError where
  status : Nat
  code : String
  message : String
  deriving DecidableEq

namespace ApiError

def unauthorized (message : String) : ApiError := ⟨401, "UNAUTHORIZED", message⟩

def badRequest (message : String) : ApiError := ⟨400, "BAD_REQUEST", message⟩

def forbidden (message : String) : ApiError := ⟨403, "FORBIDDEN", message⟩

def notFound (message : String) : ApiError := ⟨404, "NOT_FOUND", message⟩

def internal : ApiError := ⟨500, "INTERNAL_ERROR", "internal server error"⟩

def ofService : ServiceError → ApiError
  | .domain (.validation field message) => ⟨400, "VALIDATION_ERROR", field ++ ": " ++ message⟩
  | .domain (.businessRule rule) => ⟨409, "BUSINESS_RULE_VIOLATION", rule⟩
  | .notFound what => notFound (what ++ " not found")
  | .repository .notFound => notFound "requested resource not found"
  | .repository (.conflict message) => ⟨409, "CONFLICT", message⟩
  | .authentication => ⟨401, "AUTHENTICATION_FAILED", "authentication failed"⟩
  | .authorization => ⟨403, "AUTHORIZATION_FAILED", "authorization failed"⟩
  | _ => internal

def toValue (e : ApiError) : Json.Value :=
  .object [("code", .string e.code), ("message", .string e.message)]

end ApiError

end Workboard
