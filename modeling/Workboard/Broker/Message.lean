import Workboard.Todo.Mapping

/-!
Messages as they are handed to brokers, and why a broker may not take one.
-/

namespace Workboard

inductive BrokerError where
  | publish (broker message : String)
  | connection (broker message : String)
  | encoding (message : String)
  | closed (broker : String)
  deriving DecidableEq

def BrokerError.message : BrokerError → String
  | .publish broker message => broker ++ " 发布失败: " ++ message
  | .connection broker message => broker ++ " 连接失败: " ++ message
  | .encoding message => "消息编码失败: " ++ message
  | .closed broker => broker ++ " 已关闭"

structure BrokerMessage where
  eventId : Uuid
  eventType : String
  aggregateId : Uuid
  payload : Bytes
  headers : Headers
  deriving DecidableEq

namespace BrokerMessage

/-- A row as a message. The header with the row's identifier replaces any that the row brings. -/
def ofRecord (r : OutboxRecord) : BrokerMessage where
  eventId := r.id
  eventType := r.eventType
  aggregateId := r.aggregateId
  payload := r.payload
  headers := r.headers.insert EventMapper.eventIdHeader r.id.toText

/-- Messages with one key keep their order. -/
def orderingKey (m : BrokerMessage) : String := m.eventType ++ "." ++ m.aggregateId.toText

/-- The part of an event type before its first dot; the whole type if that part is empty. -/
def scopeOf (eventType : String) : String :=
  match eventType.toList.takeWhile (· != '.') with
  | [] => eventType
  | cs => String.ofList cs

def scope (m : BrokerMessage) : String := scopeOf m.eventType

/-- The room that may see the message. -/
def roomId? (m : BrokerMessage) : Option String := m.headers.get? EventMapper.roomHeader

end BrokerMessage

end Workboard
