import Workboard.Scenario.Input
import Workboard.Broker.Envelope
import Workboard.Realtime.Hub
import Workboard.Http.Error

/-!
Reports on scenarios are JSON values whose members are sorted. Failures are shown by the kind of the error
and its message.
-/

namespace Workboard.Scenario

open Json

def str (s : String) : Value := .string s

def nat (n : Nat) : Value := .int (n : Int)

def obj (ms : List (String × Value)) : Value := .ofMembers ms

mutual

/-- A value with its members sorted at every level. -/
def sorted : Value → Value
  | .array vs => .array (sortedItems vs)
  | .object ms => obj (sortedMembers ms)
  | v => v

def sortedItems : List Value → List Value
  | [] => []
  | v :: vs => sorted v :: sortedItems vs

def sortedMembers : List (String × Value) → List (String × Value)
  | [] => []
  | (name, v) :: ms => (name, sorted v) :: sortedMembers ms

end

def list {α : Type} (f : α → Value) (xs : List α) : Value := .array (xs.map f)

def option {α : Type} (f : α → Value) : Option α → Value := Value.optional f

def hexText (bs : Bytes) : String :=
  String.ofList (bs.flatMap fun b => [digitChar (b.toNat / 16), digitChar (b.toNat % 16)])

def bytes (bs : Bytes) : Value :=
  match Bytes.text? bs with
  | some s => .string s
  | none => obj [("hex", str (hexText bs))]

def uuid (u : Uuid) : Value := .uuid u

def ok (v : Value) : Value := obj [("ok", v)]

def kindOnly (kind : String) : Value := obj [("error", str kind)]

def jsonError : Value := kindOnly "Json"

/-- What follows the first occurrence of a text, and what comes before it. -/
def splitAt? (mark : List Char) : List Char → Option (List Char × List Char)
  | [] => if mark.isEmpty then some ([], []) else none
  | c :: cs =>
    if mark.isPrefixOf (c :: cs) then some ([], (c :: cs).drop mark.length)
    else (splitAt? mark cs).map fun (before, after) => (c :: before, after)

def detailMarks : List String :=
  ["编码失败: ", "解码失败: ", "JSON error: ", "Base64 error: ", "UTF-8 error: ", "创建 Redis 客户端失败: ",
    "创建 Kafka 生产者失败: ", "Failed to load configuration: "]

/-- Cuts what a message says in words that are not its own. -/
def cut (message : String) : String :=
  let cs := message.toList
  match detailMarks.findSome? fun m => (splitAt? m.toList cs).map fun p => (p.1, m) with
  | some (before, m) => String.ofList before ++ m ++ "<detail>"
  | none => message

def failure (kind message : String) : Value :=
  obj [("error", str kind), ("message", str (cut message))]

def result {ε α : Type} (onError : ε → Value) (onOk : α → Value) : Except ε α → Value
  | .ok a => ok (onOk a)
  | .error e => onError e

def unit (_ : Unit) : Value := .null


def domainKind : DomainError → String
  | .validation _ _ => "ValidationError"
  | .businessRule _ => "BusinessRuleViolation"

def repositoryKind : RepositoryError → String
  | .notFound => "NotFound"
  | .conflict _ => "Conflict"
  | .storage _ => "Storage"

def outboxKind : OutboxError → String
  | .storage _ => "Storage"
  | .notFound _ => "NotFound"
  | .commit _ => "Commit"

def mappingKind : MappingError → String
  | .serialization _ => "Serialization"
  | .rejected _ _ => "Rejected"

def unitOfWorkKind : UnitOfWorkError → String
  | .outbox e => "Outbox." ++ outboxKind e
  | .mapping e => "Mapping." ++ mappingKind e
  | .cancelled => "Cancelled"

def outboxFailure (e : OutboxError) : Value := failure (outboxKind e) e.message


def codecKind : CodecError → String
  | .encode _ => "Encode"
  | .decode _ => "Decode"
  | .truncated _ _ => "Truncated"
  | .oversized _ => "Oversized"

def cacheKind : CacheError → String
  | .store _ => "Store"
  | .codec e => "Codec." ++ codecKind e

def brokerKind : BrokerError → String
  | .publish _ _ => "Publish"
  | .connection _ _ => "Connection"
  | .encoding _ => "Encoding"
  | .closed _ => "Closed"

def hubKind : HubError → String
  | .noRooms => "NoRooms"
  | .shuttingDown => "ShuttingDown"
  | .permission _ => "Permission"

def serviceKind : ServiceError → String
  | .domain e => "Domain." ++ domainKind e
  | .notFound _ => "NotFound"
  | .repository e => "Repository." ++ repositoryKind e
  | .unitOfWork e => "UnitOfWork." ++ unitOfWorkKind e
  | .cache e => "Cache." ++ cacheKind e
  | .infrastructure _ => "Infrastructure"
  | .authentication => "Authentication"
  | .authorization => "Authorization"

def serviceFailure (e : ServiceError) : Value := failure (serviceKind e) e.message

def brokerFailure (e : BrokerError) : Value := failure (brokerKind e) e.message

def hubFailure (e : HubError) : Value := failure (hubKind e) e.message

def cacheFailure (e : CacheError) : Value := failure (cacheKind e) e.message

def apiError (e : ApiError) : Value :=
  obj [("status", nat e.status), ("body", obj [("code", str e.code), ("message", str (cut e.message))]),
    ("same", .bool true)]

def domainFailure (e : DomainError) : Value := failure (domainKind e) e.message


def todoValue (t : Todo) : Value := sorted t.toValue

def eventValue (e : TodoEvent) : Value := sorted e.toValue

def eventView (e : TodoEvent) : Value :=
  obj [("event", eventValue e), ("name", str e.name), ("todo_id", uuid e.todoId.uuid),
    ("workspace_id", uuid e.workspaceId.uuid), ("aggregate_id", uuid e.todoId.uuid),
    ("occurred_at", .instant e.timestamp)]

def headersValue (h : Headers) : Value := obj (h.map fun (n, v) => (n, str v))

def recordMembers (r : OutboxRecord) : List (String × Value) :=
  [("id", uuid r.id), ("event_type", str r.eventType), ("aggregate_type", str r.aggregateType),
    ("aggregate_id", uuid r.aggregateId), ("payload", bytes r.payload),
    ("headers", headersValue r.headers), ("retries", nat r.retries),
    ("last_error", option (fun e => str (cut e)) r.lastError),
    ("processed", .bool r.processedAt.isSome), ("pending", .bool r.isPending)]

def recordValue (r : OutboxRecord) : Value := obj (recordMembers r)

def datedRecord (r : OutboxRecord) : Value :=
  obj (("created_at", .instant r.createdAt) :: recordMembers r)

/-- The order of lists by the text of their items. -/
def sortByText (vs : List Value) : List Value :=
  let texts := vs.map fun v => ((Bytes.text? v.print).getD "", v)
  (texts.mergeSort fun a b => !(b.1 < a.1)).map (·.2)

/-- A counter is there once it was touched. -/
def counter (name : String) (n : Nat) : List (String × Value) :=
  if n = 0 then [] else [(name, str (toString n))]

def sortTexts (ss : List String) : List String := ss.mergeSort fun a b => !(b < a)

def doneList {α : Type} (f : α → Value) (done : List (String × Except ServiceError α)) : Value :=
  .array (sortByText (done.map fun (n, r) => .array [str n, result serviceFailure f r]))

end Workboard.Scenario
