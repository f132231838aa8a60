import Workboard.Json.Value
import Workboard.Width

/-!
Settings as trees of JSON values: laying one tree over another, and reading typed fields. A section is an
object with named fields or an array of its fields in order.
-/

namespace Workboard.Config

open Json

mutual

/-- Lays one tree over another: objects are joined member by member, all else is replaced. -/
def overlay (base : Value) : Value → Value
  | .object ms =>
    match base with
    | .object bs => .object (overlayMembers bs ms)
    | _ => .object (overlayMembers [] ms)
  | v => v

def overlayMembers (bs : List (String × Value)) : List (String × Value) → List (String × Value)
  | [] => bs
  | (name, v) :: ms =>
    let w := overlay (((bs.find? fun m => m.1 = name).map (·.2)).getD .null) v
    overlayMembers (putMember name w bs) ms

end

def field? {α : Type} (v : Value) (place : Nat) (name : String) (read : Value → Option α) : Option α :=
  match v with
  | .object _ => (v.member? name).bind read
  | .array items => items[place]?.bind read
  | _ => none

def text? : Value → Option String
  | .string s => some s
  | _ => none

def flag? : Value → Option Bool
  | .bool b => some b
  | _ => none

/-- A whole number of so many binary digits. -/
def nat? (bits : Nat) : Value → Option Nat
  | .number (.int n) => if 0 ≤ n ∧ Width.fits bits n.toNat then some n.toNat else none
  | _ => none

/-- A whole number of 64 bits with a sign. -/
def int64? : Value → Option Int
  | .number (.int n) => if Width.fitsSigned 64 n then some n else none
  | _ => none

def texts? : Value → Option (List String)
  | .array items => items.mapM text?
  | _ => none

end Workboard.Config
