import Workboard.Scenario.Report
import Workboard.Broker.Publisher
import Workboard.Realtime.Hub

/-!
Scenarios of messages, their envelopes, and the brokers they are published to.
-/

namespace Workboard.Scenario

open Json

def runMessage (v : Value) : Got Value := do
  let m := BrokerMessage.ofRecord (.ofNew (← readRecord (← get v "record" some)))
  return obj [("event_id", uuid m.eventId), ("event_type", str m.eventType),
    ("aggregate_id", uuid m.aggregateId), ("payload", bytes m.payload),
    ("headers", headersValue m.headers), ("ordering_key", str m.orderingKey), ("scope", str m.scope),
    ("room_id", option str m.roomId?), ("envelope", result brokerFailure bytes m.envelope)]

def runEnvelopeJson (v : Value) : Got Value := do
  match Envelope.ofBytes? (← get v "text" asBytes) with
  | some e => return obj [("ok", bytes e.toBytes), ("room_id", option str e.roomId)]
  | none => return jsonError

def runRoomFilter (v : Value) : Got Value := do
  return obj [("room", option str (RoomFilter.standard (← get v "raw" asBytes)))]

def readMessage (v : Value) : Got BrokerMessage := do
  return ⟨← get v "event_id" asUuid, ← get v "event_type" asText, ← get v "aggregate_id" asUuid,
    ← get v "payload" asBytes, ← headersOf v "headers"⟩

def asReply (v : Value) : Option BrokerReply := do
  let s := (← asText v).toList
  if s = "ok".toList then some .ok
  else if "publish:".toList.isPrefixOf s then some (.publish (String.ofList (s.drop 8)))
  else if "connection:".toList.isPrefixOf s then some (.connection (String.ofList (s.drop 11)))
  else if "encoding:".toList.isPrefixOf s then some (.encoding (String.ofList (s.drop 9)))
  else if "closed:".toList.isPrefixOf s then some .closed
  else none

def readBroker (v : Value) : Got Broker := do
  match member? v "local" with
  | some (.string _) => return .within (.ofCapacity LocalBroker.standardCapacity)
  | some w => return .within (.ofCapacity (← need "local" (asNat w)))
  | none =>
    let replies (name : String) := listOf v name fun w => need name (asReply w)
    return .remote ⟨← get v "name" asText, ← replies "publish", ← replies "close", 0, 0⟩

def brokerCall : BrokerCall → Value
  | .publish b m => .array [str b, str "publish", uuid m.eventId, headersValue m.headers]
  | .close b => .array [str b, str "close"]

def received : Received Bytes → Value
  | .lagged n => obj [("lagged", nat n)]
  | .message m => bytes m

structure BrokerDesk where
  publisher : Publisher
  readers : List (String × BroadcastReader)

def runBrokerStep (d : BrokerDesk) (v : Value) : Got (BrokerDesk × Value × List BrokerCall) := do
  let reader (name : String) : Got (LocalBroker × BroadcastReader) := do
    let b ← need "local broker" d.publisher.local?
    return (b, ← need name ((d.readers.find? fun e => e.1 = name).map (·.2)))
  let keep (name : String) (r : BroadcastReader) : BrokerDesk :=
    { d with readers := (name, r) :: d.readers.filter fun e => e.1 != name }
  match ← get v "do" asText with
  | "names" => return (d, list str d.publisher.names, [])
  | "publish" =>
    let (r, p, calls) := d.publisher.publish (← readMessage (← get v "message" some))
    return ({ d with publisher := p }, result brokerFailure unit r, calls)
  | "handle" =>
    let m := BrokerMessage.ofRecord (.ofNew (← readRecord (← get v "record" some)))
    let (r, p, calls) := d.publisher.publish m
    return ({ d with publisher := p }, result (fun e => failure "Handler" e.message) unit r, calls)
  | "publish_local" =>
    let b ← need "local broker" d.publisher.local?
    let (r, b) := b.publish (← readMessage (← get v "message" some))
    return ({ d with publisher := d.publisher.setLocal b }, result brokerFailure unit r, [])
  | "close" =>
    let (r, p, calls) := d.publisher.close
    return ({ d with publisher := p }, result brokerFailure unit r, calls)
  | "subscribe" | "stream" =>
    let b ← need "local broker" d.publisher.local?
    return (keep (← get v "as" asText) b.channel.subscribe, .null, [])
  | "recv" =>
    let name ← get v "from" asText
    let (b, r) ← reader name
    let (items, r) := b.channel.drain r
    return (keep name r, list received items, [])
  | "next" =>
    let name ← get v "from" asText
    let (b, r) ← reader name
    let (item, r) := b.channel.next? r
    return (keep name r, (item.map bytes).getD (str "<pending>"), [])
  | s => .error ("step " ++ s)

def runBroker (v : Value) : Got Value := do
  let brokers ← listOf v "brokers" readBroker
  let (shown, _) ← steps (fun d w => do
    let (d, r, calls) ← runBrokerStep d w
    return (d, obj [("r", r), ("calls", list brokerCall calls)]))
    (⟨⟨brokers⟩, []⟩ : BrokerDesk) (← listOf v "steps" .ok)
  return .array shown

end Workboard.Scenario
