import Workboard.Todo.Event
import Workboard.Outbox.Record

/-!
What is published of an event: its name, its JSON form, and headers that tell the room it belongs to.
-/

namespace Workboard

structure MappedEvent where
  eventType : String
  payload : Bytes
  headers : Headers
  deriving DecidableEq

inductive MappingError where
  | serialization (message : String)
  | rejected (eventType reason : String)
  deriving DecidableEq

def MappingError.message : MappingError → String
  | .serialization message => "事件序列化失败: " ++ message
  | .rejected eventType reason => "无法映射事件 " ++ eventType ++ ": " ++ reason

/-- An event is mapped, passed over, or refused. -/
abbrev EventMapper := TodoEvent → Except MappingError (Option MappedEvent)

namespace EventMapper

def roomHeader : String := "room_id"

def contentTypeHeader : String := "content_type"

/-- The header that consumers recognise repeated deliveries by. -/
def eventIdHeader : String := "event_id"

def jsonContentType : String := "application/json"

/-- The room of an event is its workspace. -/
def mapped (e : TodoEvent) : MappedEvent where
  eventType := e.name
  payload := e.toBytes
  headers := .ofList [(roomHeader, e.workspaceId.toText), (contentTypeHeader, jsonContentType)]

def standard : EventMapper := fun e => .ok (some (mapped e))

/-- Whether a pattern is the name of an event or stands for all names. -/
def covers (pattern : String) (e : TodoEvent) : Bool := pattern = "*" || pattern = e.name

/-- Refuses the events that a pattern covers. -/
def rejecting (pattern : String) : EventMapper := fun e =>
  if covers pattern e then .error (.rejected e.name "not supported") else standard e

/-- Passes over the events that a pattern covers. -/
def skipping (pattern : String) : EventMapper := fun e =>
  if covers pattern e then .ok none else standard e

end EventMapper

end Workboard
