import Workboard.Json.Fields
import Workboard.Realtime.Queue
import Workboard.Uuid

/-!
The hub hands each message to the connections that may see its room. Every connection has a queue of its
own, so that a slow one is cut off and does not hold up the others.
-/

namespace Workboard

inductive HubError where
  | noRooms
  | shuttingDown
  | permission (message : String)
  deriving DecidableEq

def HubError.message : HubError → String
  | .noRooms => "没有可订阅的房间"
  | .shuttingDown => "推送中心正在关闭"
  | .permission message => "权限查询失败: " ++ message

/-- A filter reads the room of a message, if the message has one. -/
abbrev RoomFilter := Bytes → Option String

namespace RoomFilter

open Json

def ofNode? (v : Node) : Option String := do
  let f ← Fields.ofNode? ["room_id"] v
  (← f.defaulted? 0 "room_id" Node.text?)

/-- Reads the one member `room_id` of an object, or the first item of an array. -/
def standard : RoomFilter := fun raw => (Node.ofBytes? raw).bind ofNode?

end RoomFilter

structure HubTiming where
  capacity : Nat
  pingMs : Nat
  pongMs : Nat

def HubTiming.standard : HubTiming := ⟨64, 30000, 75000⟩

structure Connection where
  id : Uuid
  user : UserId
  rooms : List String
  queue : OutboundQueue Bytes
  /-- Whether it was told on its own to end. -/
  closed : Bool

/-- Counts of what the hub did, for those that watch it. -/
structure HubCounters where
  /-- The number of connections as it was last written down. -/
  connections : Option Nat
  dropped : Nat
  slowClosed : Nat

/-- Every connection that was ever registered, and which of them are members now. -/
structure Hub where
  capacity : Nat
  connections : List Connection
  members : List Uuid
  shuttingDown : Bool
  /-- How many tasks run that the hub waits for when it shuts down. -/
  running : Nat
  counters : HubCounters

namespace Hub

def ofCapacity (capacity : Nat) : Hub := ⟨capacity, [], [], false, 0, ⟨none, 0, 0⟩⟩

def find? (h : Hub) (id : Uuid) : Option Connection := h.connections.find? fun c => c.id = id

def count (h : Hub) : Nat := h.members.length

def modify (h : Hub) (id : Uuid) (f : Connection → Connection) : Hub :=
  { h with connections := h.connections.map fun c => if c.id = id then f c else c }

def noteCount (h : Hub) : Hub := { h with counters := { h.counters with connections := some h.count } }

def distinct (rooms : List String) : List String :=
  rooms.foldl (fun seen r => if seen.contains r then seen else seen ++ [r]) []

/-- Takes a connection in under an identifier that is new. -/
def register (h : Hub) (id : Uuid) (user : UserId) (rooms : List String) :
    Except HubError Connection × Hub :=
  if h.shuttingDown then (.error .shuttingDown, h)
  else if rooms.isEmpty then (.error .noRooms, h)
  else
    let c : Connection := ⟨id, user, distinct rooms, .ofCapacity h.capacity, false⟩
    (.ok c, noteCount { h with connections := h.connections ++ [c], members := h.members ++ [id] })

/-- Lets a member go. It is no failure if it has gone already. -/
def unregister (h : Hub) (id : Uuid) : Hub :=
  if h.members.contains id then
    noteCount
      ({ h with members := h.members.filter fun m => m != id }.modify id fun c =>
        { c with queue := c.queue.close, closed := true })
  else h

def noteDrop (h : Hub) : Hub :=
  { h with counters := { h.counters with dropped := h.counters.dropped + 1 } }

def noteSlow (h : Hub) : Hub :=
  { h with counters := { h.counters with slowClosed := h.counters.slowClosed + 1 } }

/-- Hands a message to one connection. Tell whether it was taken. -/
def pushTo (h : Hub) (raw : Bytes) (c : Connection) : Bool × Hub :=
  let (outcome, queue) := c.queue.push raw
  let pushed := h.modify c.id fun c => { c with queue := queue }
  match outcome with
  | .queued => (true, pushed)
  | .droppedOldest => (true, pushed.noteDrop)
  | .overflowed => (false, (pushed.noteDrop.noteSlow).unregister c.id)
  | .closed => (false, h)

def pushAll (raw : Bytes) : List Connection → Hub → Nat × Hub
  | [], h => (0, h)
  | c :: cs, h =>
    let (taken, h) := h.pushTo raw c
    let (n, h) := pushAll raw cs h
    (if taken then n + 1 else n, h)

def targets (h : Hub) (room : String) : List Connection :=
  h.connections.filter fun c => h.members.contains c.id && c.rooms.contains room

/-- Hands a message to the members of its room. The answer is how many took it. -/
def dispatch (h : Hub) (filter : RoomFilter) (raw : Bytes) : Nat × Hub :=
  match filter raw with
  | none => (0, h)
  | some room => pushAll raw (h.targets room) h

def dispatchAll (h : Hub) (filter : RoomFilter) (raws : List Bytes) : Hub :=
  if h.shuttingDown then h else raws.foldl (fun h raw => (h.dispatch filter raw).2) h

/-- Whether a connection has been told to end. -/
def isClosed (h : Hub) (id : Uuid) : Bool :=
  h.shuttingDown || ((h.find? id).map (·.closed)).getD true

/-- The next message for a connection, which ends once it has been told to. -/
def next (h : Hub) (id : Uuid) : NextMessage Bytes × Hub :=
  if h.isClosed id then (.closed, h)
  else
    match h.find? id with
    | none => (.closed, h)
    | some c =>
      let (r, queue) := c.queue.next
      (r, h.modify id fun c => { c with queue := queue })

/-- Whether a reader of a connection would find something. -/
def hasNext (h : Hub) (id : Uuid) : Bool :=
  match (h.next id).1 with
  | .pending => false
  | _ => true

/-- How many messages wait for a connection. -/
def waiting (h : Hub) (id : Uuid) : Nat := ((h.find? id).map (·.queue.items.length)).getD 0

/-- Tells every connection to end. The tasks that the hub waits for may still run. -/
def beginShutdown (h : Hub) : Hub :=
  { h with
    shuttingDown := true
    connections := h.connections.map fun c =>
      if h.members.contains c.id then { c with queue := c.queue.close } else c }

def track (h : Hub) : Hub := { h with running := h.running + 1 }

def untrack (h : Hub) : Hub := { h with running := h.running - 1 }

/-- Whether a shutdown that began has nothing left to wait for. -/
def hasStopped (h : Hub) : Bool := h.shuttingDown && h.running == 0

end Hub

/-!
Which rooms a user may see.
-/

/-- A table of grants, in the order in which they were given. -/
structure RoomGrants where
  grants : List (UserId × String)

namespace RoomGrants

def grant (g : RoomGrants) (user : UserId) (room : String) : RoomGrants :=
  ⟨g.grants ++ [(user, room)]⟩

def rooms (g : RoomGrants) (user : UserId) : List String :=
  (g.grants.filter fun e => e.1 = user).map (·.2)

end RoomGrants

end Workboard
