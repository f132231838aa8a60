import Workboard.Json.Value
import Workboard.Time.Rfc3339
import Workboard.Uuid
import Workboard.Width

/-!
Reading typed data from JSON trees. A record is an object with named fields, of which unknown ones are
skipped and known ones must not repeat, or an array of the fields in order.
-/

namespace Workboard.Json

namespace Node

def text? : Node → Option String
  | .string body => textOfBody? body
  | _ => none

def bool? : Node → Option Bool
  | .bool b => some b
  | _ => none

def isNull : Node → Bool
  | .null => true
  | _ => false

def int? : Node → Option Int
  | .number w =>
    match Number.ofWritten? w with
    | some (.int n) => some n
    | _ => none
  | _ => none

/-- A whole number of at most 64 bits without a sign. -/
def nat64? (v : Node) : Option Nat := v.int?.bind fun n => if 0 ≤ n then some n.toNat else none

/-- A whole number of at most 64 bits with a sign. -/
def int64? (v : Node) : Option Int := v.int?.filter (Width.fitsSigned 64)

def uuid? (v : Node) : Option Uuid := v.text?.bind Uuid.ofText?

def instant? (v : Node) : Option Instant := v.text?.bind Instant.ofText?

def optional? {α : Type} (read : Node → Option α) (v : Node) : Option (Option α) :=
  if v.isNull then some none else (read v).map some

def items? {α : Type} (read : Node → Option α) : Node → Option (List α)
  | .array items => items.mapM read
  | _ => none

end Node

/-- The fields of a record as they were found. -/
inductive Fields where
  | named (found : List (String × Node))
  | inOrder (items : List Node)

namespace Fields

/-- Members whose names are known; a known name must not repeat. -/
def known? (names : List String) : List (Bytes × Node) → Option (List (String × Node))
  | [] => some []
  | (key, v) :: ms => do
    let name ← textOfBody? key
    let rest ← known? names ms
    if names.contains name then
      if rest.any (·.1 = name) then none else some ((name, v) :: rest)
    else some rest

def ofNode? (names : List String) : Node → Option Fields
  | .object ms => (known? names ms).map .named
  | .array items => if items.length ≤ names.length then some (.inOrder items) else none
  | _ => none

def get? (f : Fields) (place : Nat) (name : String) : Option Node :=
  match f with
  | .named found => (found.find? fun m => m.1 = name).map (·.2)
  | .inOrder items => items[place]?

def required? {α : Type} (f : Fields) (place : Nat) (name : String) (read : Node → Option α) :
    Option α :=
  (f.get? place name).bind read

/-- A field that may be null; a named one may also be missing. -/
def optional? {α : Type} (f : Fields) (place : Nat) (name : String) (read : Node → Option α) :
    Option (Option α) :=
  match f.get? place name, f with
  | some v, _ => v.optional? read
  | none, .named _ => some none
  | none, .inOrder _ => none

/-- A field that may be null or missing in either form. -/
def defaulted? {α : Type} (f : Fields) (place : Nat) (name : String) (read : Node → Option α) :
    Option (Option α) :=
  match f.get? place name with
  | some v => v.optional? read
  | none => some none

end Fields

namespace Value

def uuid (u : Uuid) : Value := .string u.toText

def instant (t : Instant) : Value := .string t.toText

def optional {α : Type} (write : α → Value) : Option α → Value
  | none => .null
  | some a => write a

end Value

end Workboard.Json
