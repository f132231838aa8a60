import Workboard.Json.Value
import Workboard.Uuid
import Workboard.Time.Instant

/-!
Rows of the outbox: events that wait to be published, and how their delivery went so far.
-/

namespace Workboard

/-- Header texts by name, sorted by name. -/
abbrev Headers := List (String × String)

namespace Headers

def insert (h : Headers) (name value : String) : Headers := Json.putMember name value h

def get? (h : Headers) (name : String) : Option String := (h.find? fun e => e.1 = name).map (·.2)

def ofList (entries : List (String × String)) : Headers :=
  entries.foldl (fun h e => h.insert e.1 e.2) []

end Headers

/-- A row that is about to be written. -/
structure NewRecord where
  id : Uuid
  eventType : String
  aggregateType : String
  aggregateId : Uuid
  payload : Bytes
  headers : Headers
  createdAt : Instant
  deriving DecidableEq

structure OutboxRecord extends NewRecord where
  retries : Nat
  lastError : Option String
  processedAt : Option Instant
  deriving DecidableEq

namespace OutboxRecord

/-- A row as it is first written. -/
def ofNew (r : NewRecord) : OutboxRecord := ⟨r, 0, none, none⟩

/-- A row that was processed is not delivered again. -/
def isPending (r : OutboxRecord) : Bool := r.processedAt.isNone

/-- The first time of processing counts. -/
def process (r : OutboxRecord) (now : Instant) : OutboxRecord :=
  { r with processedAt := r.processedAt <|> some now }

def fail (r : OutboxRecord) (error : String) : OutboxRecord :=
  { r with retries := r.retries + 1, lastError := some error }

end OutboxRecord

/-- How many rows wait, and since when the oldest does. -/
structure Backlog where
  pending : Nat
  oldest : Option Instant

/-- How long the oldest row has waited, in nanoseconds; zero if none waits or it is from the future. -/
def Backlog.oldestAge (b : Backlog) (now : Instant) : Nat :=
  match b.oldest with
  | some created => (now.nanosSince created).toNat
  | none => 0

inductive OutboxError where
  | storage (message : String)
  | notFound (id : Uuid)
  | commit (message : String)
  deriving DecidableEq

def OutboxError.message : OutboxError → String
  | .storage message => "发件箱存储错误: " ++ message
  | .notFound id => "发件箱记录不存在: " ++ id.toText
  | .commit message => "事务提交失败: " ++ message

end Workboard
