import Workboard.Json.Fields
import Workboard.Todo.Basic
import Workboard.Outbox.Record

/-!
Scenarios are given as JSON objects. What is read here are their fields and the shapes that several kinds
of scenario share; a field that is missing or null takes a default.
-/

namespace Workboard.Scenario

open Json

/-- A value, or what is wrong with the scenario. -/
abbrev Got := Except String

def member? (v : Value) (name : String) : Option Value :=
  match v.member? name with
  | some .null => none
  | r => r

def need {α : Type} (what : String) : Option α → Got α
  | some a => .ok a
  | none => .error ("bad " ++ what)

def asText : Value → Option String
  | .string s => some s
  | _ => none

def asInt : Value → Option Int
  | .number (.int n) => some n
  | _ => none

def asNat (v : Value) : Option Nat := (asInt v).bind fun n => if 0 ≤ n then some n.toNat else none

def asBool : Value → Option Bool
  | .bool b => some b
  | _ => none

def asList : Value → Option (List Value)
  | .array vs => some vs
  | _ => none

def hexPairs : List Char → Option Bytes
  | [] => some []
  | a :: b :: cs => do
    let x ← hexValue? a
    let y ← hexValue? b
    let rest ← hexPairs cs
    some (UInt8.ofNat (x * 16 + y) :: rest)
  | [_] => none

def asBytes (v : Value) : Option Bytes :=
  match v with
  | .string s => some (Bytes.ofText s)
  | v => ((v.member? "hex").bind asText).bind fun s => hexPairs s.toList

def asUuid (v : Value) : Option Uuid := (asText v).bind Uuid.ofText?

def asInstant (v : Value) : Option Instant := (asText v).bind Instant.ofText?

def get {α : Type} (v : Value) (name : String) (read : Value → Option α) : Got α :=
  need name ((v.member? name).bind read)

/-- A field that may be missing or null. -/
def opt {α : Type} (v : Value) (name : String) (read : Value → Option α) : Got (Option α) :=
  match member? v name with
  | none => .ok none
  | some w => (need name (read w)).map some

def getD {α : Type} (v : Value) (name : String) (read : Value → Option α) (default : α) : Got α :=
  (opt v name read).map (·.getD default)

def flag (v : Value) (name : String) : Got Bool := getD v name asBool false

def listOf {α : Type} (v : Value) (name : String) (read : Value → Got α) : Got (List α) :=
  match member? v name with
  | none => .ok []
  | some w => (need name (asList w)).bind fun vs => vs.mapM read

def texts (v : Value) (name : String) : Got (List String) :=
  listOf v name fun w => need name (asText w)

def membersOf (v : Value) (name : String) : Got (List (String × Value)) :=
  match member? v name with
  | none => .ok []
  | some (.object ms) => .ok ms
  | some _ => .error ("bad " ++ name)


def settles (v : Value) : Got Bool := getD v "settle" asBool true
def readRow (v : Value) : Got Todo := do
  let id ← get v "id" asUuid
  let workspace ← get v "workspace_id" asUuid
  let title ← get v "title" asText
  let completed ← flag v "completed"
  let created ← get v "created_at" asInstant
  let updated ← getD v "updated_at" asInstant created
  let completedAt ← opt v "completed_at" asInstant
  return ⟨⟨id⟩, ⟨workspace⟩, title, completed, created, updated, completedAt⟩

def headersOf (v : Value) (name : String) : Got Headers := do
  let ms ← membersOf v name
  let entries ← ms.mapM fun (n, w) => do return (n, ← need n (asText w))
  return .ofList entries

def readRecord (v : Value) : Got NewRecord := do
  let id ← get v "id" asUuid
  let eventType ← get v "event_type" asText
  let kind ← getD v "aggregate_type" asText "todo"
  let aggregate ← get v "aggregate_id" asUuid
  let payload ← getD v "payload" asBytes (Bytes.ofText "\x7b\x7d")
  let headers ← headersOf v "headers"
  let created ← get v "created_at" asInstant
  return ⟨id, eventType, kind, aggregate, payload, headers, created⟩

/-- The wall clock where no input gives it. -/
def wallClock : Got Instant := need "clock" (Instant.ofText? "2026-06-01T00:00:00Z")

def steps {σ : Type} (step : σ → Value → Got (σ × Value)) : σ → List Value → Got (List Value × σ)
  | s, [] => .ok ([], s)
  | s, v :: vs => do
    let (s, r) ← step s v
    let (rs, s) ← steps step s vs
    return (r :: rs, s)

end Workboard.Scenario
