import Workboard.Broker.Message
import Workboard.Json.Fields

/-!
The JSON form in which messages reach subscribers of channels, and the room that is read out of it.
-/

namespace Workboard

structure Envelope where
  eventId : Uuid
  eventType : String
  aggregateId : Uuid
  roomId : Option String
  data : Json.Value

namespace Envelope

open Json

/-- An empty payload stands for null, any other has to be a JSON value. -/
def ofMessage? (m : BrokerMessage) : Option Envelope :=
  let data := if m.payload.isEmpty then some .null else Value.ofBytes? m.payload
  data.map fun data => ⟨m.eventId, m.eventType, m.aggregateId, m.roomId?, data⟩

/-- A message without a room has no member for it. -/
def toValue (e : Envelope) : Value :=
  let room := match e.roomId with
    | some room => [("room_id", Value.string room)]
    | none => []
  .object ([("event_id", .uuid e.eventId), ("event_type", .string e.eventType),
    ("aggregate_id", .uuid e.aggregateId)] ++ room ++ [("data", e.data)])

def toBytes (e : Envelope) : Bytes := e.toValue.print

def fieldNames : List String := ["event_id", "event_type", "aggregate_id", "room_id", "data"]

/-- The data stand one level below the envelope, so they may nest one level less than a value of their
own. -/
def ofNode? (v : Node) : Option Envelope := do
  let f ← Fields.ofNode? fieldNames v
  let event ← f.required? 0 "event_id" Node.uuid?
  let eventType ← f.required? 1 "event_type" Node.text?
  let aggregate ← f.required? 2 "aggregate_id" Node.uuid?
  let room ← f.defaulted? 3 "room_id" Node.text?
  let data ← f.required? 4 "data" (Value.ofNode? (Value.maxDepth - 1))
  some ⟨event, eventType, aggregate, room, data⟩

def ofBytes? (bs : Bytes) : Option Envelope := (Node.ofBytes? bs).bind ofNode?

end Envelope

/-- The bytes that subscribers get for a message. -/
def BrokerMessage.envelope (m : BrokerMessage) : Except BrokerError Bytes :=
  match Envelope.ofMessage? m with
  | some e => .ok e.toBytes
  | none => .error (.encoding "payload is not a JSON value")

end Workboard
