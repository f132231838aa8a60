import Workboard.Scenario.Brokers
import Workboard.Realtime.HubScript
import Workboard.Realtime.Hub
import Workboard.Realtime.Readers

/-!
Scenarios of the hub, of the queue of one connection, and of the grants of rooms.
-/

namespace Workboard.Scenario

open Json

def pushOutcome : PushOutcome → Value
  | .queued => str "Queued"
  | .droppedOldest => str "DroppedOldest"
  | .overflowed => str "Overflowed"
  | .closed => str "Closed"

def nextMessage : NextMessage Bytes → Value
  | .message m => bytes m
  | .closed => str "<closed>"
  | .pending => str "<pending>"

def runQueueStep (s : ReadingRoom Bytes) (v : Value) : Got (ReadingRoom Bytes × Value) := do
  match ← get v "do" asText with
  | "push" =>
    let (r, s) := s.push (← get v "m" asBytes)
    return (s, pushOutcome r)
  | "next" =>
    let (r, s) := s.nextNow
    return (s, nextMessage r)
  | "close" => return (s.close, .null)
  | "reader" => return ({ s with runnable := s.runnable ++ [← get v "as" asText] }, .null)
  | s => .error ("step " ++ s)

def runQueue (v : Value) : Got Value := do
  let start : ReadingRoom Bytes := ⟨.ofCapacity (← getD v "capacity" asNat 0), [], []⟩
  let (shown, _) ← steps (fun s w => do
    let (s, r) ← runQueueStep { s with done := [] } w
    let s := if ← settles w then s.settle else s
    let q := s.awaited.queue
    let done := s.done.map fun (name, m) => Value.array [str name, nextMessage m]
    return (s, obj [("r", r), ("len", nat q.items.length), ("empty", .bool q.items.isEmpty),
      ("closed", .bool q.closed), ("done", .array (sortByText done))]))
    start (← listOf v "steps" .ok)
  return obj [("capacity", nat start.awaited.queue.capacity), ("steps", .array shown)]

def readGrant (v : Value) : Got (UserId × String) := do
  match v with
  | .array [user, room] => return (⟨← need "user" (asUuid user)⟩, ← need "room" (asText room))
  | _ => .error "grant"

def readGrants (v : Value) : Got RoomGrants := do
  return (← listOf v "grants" readGrant).foldl (fun g e => g.grant e.1 e.2) ⟨[]⟩

def runPermissions (v : Value) : Got Value := do
  let grants ← readGrants v
  let users ← listOf v "query" fun w => need "user" (asUuid w)
  return list (fun u => list str (grants.rooms ⟨u⟩)) users

def readHubStep (v : Value) : Got HubStep := do
  let conn := get v "conn" asText
  match ← get v "do" asText with
  | "register" => return .register (← conn) ⟨← get v "user" asUuid⟩ (← texts v "rooms")
  | "dispatch" => return .dispatch (← get v "raw" asBytes)
  | "next" => return .next (← conn)
  | "close" => return .close (← conn)
  | "drop" => return .drop (← conn)
  | "track" => return .track (← conn) (← getD v "linger" asNat 0)
  | "listen" =>
    return .listen (← listOf v "messages" fun w => need "message" (asBytes w)) (← flag v "cancelled")
  | "listen_local" => return .listenLocal (← getD v "capacity" asNat 16)
  | "publish" => return .publish (← readMessage (← get v "message" some))
  | "cancel_listen" => return .cancelListen
  | "shutdown" => return .shutdown
  | "begin_shutdown" => return .beginShutdown
  | "stopped" => return .stopped
  | "advance" => return .advance (← get v "ms" asNat)
  | s => .error ("step " ++ s)

def registered : Except HubError Connection → Value
  | .ok c =>
    obj [("ok", list str (sortTexts c.rooms)), ("user", uuid c.user.uuid), ("id", uuid c.id)]
  | .error e => hubFailure e

def hubAnswer : HubAnswer → Value
  | .none => .null
  | .gone => str "<gone>"
  | .registered r => registered r
  | .count n => nat n
  | .next m => nextMessage m
  | .published r => result brokerFailure unit r
  | .stopped b => option .bool b

def hubLog : HubLog → Value
  | .message name m => .array [str name, bytes m]
  | .ended name => .array [str name, str "<end>"]
  | .listenerEnded => str "<listener ended>"

def hubMetrics (c : HubCounters) : List (String × Value) :=
  (match c.connections with
    | some n => [("hub_connections", str (toString n))]
    | none => []) ++
    counter "hub_messages_dropped_total" c.dropped ++
    counter "hub_slow_consumers_closed_total" c.slowClosed

def runHub (v : Value) : Got Value := do
  let start : HubStep.Bench := ⟨.ofCapacity (← getD v "capacity" asNat 64), [], 0⟩
  let (shown, s) ← steps (fun s w => do
    let (r, s) := HubStep.runSettled RoomFilter.standard s (← readHubStep w) (← settles w)
    let b := s.world
    return (s, obj [("r", hubAnswer r), ("count", nat b.hub.count),
      ("closed", list str (sortTexts b.closedNames)), ("shutting_down", .bool b.hub.shuttingDown),
      ("log", .array (sortByText (b.log.map hubLog)))])) start (← listOf v "steps" .ok)
  let left := s.world.held.foldl (fun h e => h.unregister e.2) s.world.hub
  return obj [("metrics", obj (hubMetrics left.counters)), ("steps", .array shown)]

end Workboard.Scenario
