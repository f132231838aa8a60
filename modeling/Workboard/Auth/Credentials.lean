import Workboard.Auth.Token
import Workboard.Http.Error

/-!
Who sends a request: a token stands in the header for authorization.
-/

namespace Workboard

/-- Headers of a request in the order in which they came; names are in lower case. -/
abbrev RequestHeaders := List (String × Bytes)

namespace RequestHeaders

def first? (h : RequestHeaders) (name : String) : Option Bytes :=
  (h.find? fun e => e.1 = name).map (·.2)

def has (h : RequestHeaders) (name : String) : Bool := h.any fun e => e.1 = name

/-- Characters that may stand in a header that is read as text. -/
def isVisible (b : UInt8) : Bool := (0x20 ≤ b && b < 0x7F) || b == 0x09

/-- A header as text, if all of it can be shown. -/
def text? (h : RequestHeaders) (name : String) : Option String :=
  match h.first? name with
  | some bs => if bs.all isVisible then Bytes.text? bs else none
  | none => none

end RequestHeaders

namespace Credentials

def header : String := "authorization"

def missing : ApiError := .unauthorized "Missing authorization header"

def wrongFormat : ApiError := .unauthorized "Invalid authorization header format"

def invalid (e : TokenError) : ApiError := .unauthorized ("Invalid token: " ++ e.message)

def verify (secret token : String) (now : Int) : Except ApiError Claims :=
  (Token.verify secret token now).mapError invalid

def bearer : List Char := "Bearer ".toList

def ofHeaders (secret : String) (h : RequestHeaders) (now : Int) : Except ApiError UserId :=
  match h.text? header with
  | none => .error missing
  | some text =>
    if bearer.isPrefixOf text.toList then
      (verify secret (String.ofList (text.toList.drop bearer.length)) now).map (·.userId)
    else .error wrongFormat

end Credentials

end Workboard
