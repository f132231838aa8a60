import Workboard.Realtime.Hub

/-!
What happens to a hub over time: connections come, are read and go, messages are dispatched, and it is shut
down. Beside it, what happens to one queue that stands alone.
-/

namespace Workboard

/-- A call of a queue. -/
inductive QueueCall (α : Type) where
  | push (m : α)
  | next
  | close
  deriving DecidableEq

namespace OutboundQueue

variable {α : Type}

def after (q : OutboundQueue α) : QueueCall α → OutboundQueue α
  | .push m => (q.push m).2
  | .next => q.next.2
  | .close => q.close

/-- What a reader is told by a call; only reads tell something. -/
def told (q : OutboundQueue α) : QueueCall α → List (NextMessage α)
  | .next => [q.next.1]
  | _ => []

/-- What the reads among some calls find, in order. -/
def answers : OutboundQueue α → List (QueueCall α) → List (NextMessage α)
  | _, [] => []
  | q, c :: cs => q.told c ++ answers (q.after c) cs

end OutboundQueue

namespace QueueCall

/-- The messages that are pushed, in order. -/
def pushed {α : Type} (calls : List (QueueCall α)) : List α :=
  calls.filterMap fun
    | .push m => some m
    | _ => none

end QueueCall

def NextMessage.message? {α : Type} : NextMessage α → Option α
  | .message m => some m
  | _ => none

/-- How a message leaves a queue: it is delivered, or given up for a newer one. -/
inductive Departure (α : Type) where
  | delivered (m : α)
  | evicted (m : α)
  deriving DecidableEq

namespace Departure

variable {α : Type}

def message : Departure α → α
  | .delivered m | .evicted m => m

def delivered? : Departure α → Option α
  | .delivered m => some m
  | .evicted _ => none

/-- The evictions since the last delivery, if so many came before. -/
def streakAfter (before : Nat) : Departure α → Nat
  | .delivered _ => 0
  | .evicted _ => before + 1

def streak (gone : List (Departure α)) : Nat := gone.foldl streakAfter 0

end Departure

namespace OutboundQueue

variable {α : Type}

/-- What leaves a queue at a call. A push that is told so has evicted the oldest message. -/
def leaving (q : OutboundQueue α) : QueueCall α → List (Departure α)
  | .push m =>
    match (q.push m).1 with
    | .droppedOldest | .overflowed => q.items.head?.toList.map .evicted
    | .queued | .closed => []
  | .next => q.next.1.message?.toList.map .delivered
  | .close => []

/-- What leaves a queue at some calls, in order. -/
def departures : OutboundQueue α → List (QueueCall α) → List (Departure α)
  | _, [] => []
  | q, c :: cs => q.leaving c ++ departures (q.after c) cs

end OutboundQueue

/-- An order in which connections are served. -/
structure ServingOrder where
  arrange : List Connection → List Connection
  perm : ∀ cs, (arrange cs).Perm cs

/-- The order in which they came. -/
def ServingOrder.listed : ServingOrder := ⟨id, fun _ => .refl _⟩

inductive HubEvent where
  | register (id : Uuid) (user : UserId) (rooms : List String)
  | dispatch (raw : Bytes) (order : ServingOrder)
  | next (id : Uuid)
  | close (id : Uuid)
  | drop (id : Uuid)

namespace HubEvent

/-- The identifiers under which connections come. -/
def registered (history : List HubEvent) : List Uuid :=
  history.filterMap fun
    | .register id _ _ => some id
    | _ => none

/-- What an event is for the queue of a connection with these rooms. -/
def concern (filter : RoomFilter) (id : Uuid) (rooms : List String) : HubEvent → List (QueueCall Bytes)
  | .register _ _ _ => []
  | .dispatch raw _ => if (filter raw).any rooms.contains then [.push raw] else []
  | .next other => if other = id then [.next] else []
  | .close other | .drop other => if other = id then [.close] else []

end HubEvent

namespace Hub

/-- Hands a message to the members of its room, in an order of its own. -/
def dispatchBy (h : Hub) (order : ServingOrder) (filter : RoomFilter) (raw : Bytes) : Nat × Hub :=
  match filter raw with
  | none => (0, h)
  | some room => pushAll raw (order.arrange (h.targets room)) h

theorem dispatchBy_listed (h : Hub) (filter : RoomFilter) (raw : Bytes) :
    h.dispatchBy .listed filter raw = h.dispatch filter raw := rfl

def after (filter : RoomFilter) (h : Hub) : HubEvent → Hub
  | .register id user rooms => (h.register id user rooms).2
  | .dispatch raw order => (h.dispatchBy order filter raw).2
  | .next id => (h.next id).2
  | .close id => h.unregister id
  | .drop id => h.unregister id

def run (filter : RoomFilter) (h : Hub) (history : List HubEvent) : Hub :=
  history.foldl (after filter) h

/-- What a connection is told by an event; only its own reads tell it something. -/
def told (h : Hub) (id : Uuid) : HubEvent → List (NextMessage Bytes)
  | .next other => if other = id then [(h.next id).1] else []
  | _ => []

/-- What the reads of a connection find, in order. -/
def heard (filter : RoomFilter) (id : Uuid) : Hub → List HubEvent → List (NextMessage Bytes)
  | _, [] => []
  | h, e :: es => h.told id e ++ heard filter id (h.after filter e) es

/-- What an event is for the queue of a connection, but for a message that comes when it is no member. -/
def concern (h : Hub) (filter : RoomFilter) (id : Uuid) (rooms : List String) :
    HubEvent → List (QueueCall Bytes)
  | .dispatch raw order =>
    if h.members.contains id then (HubEvent.dispatch raw order).concern filter id rooms else []
  | e => e.concern filter id rooms

/-- The calls that the queue of a connection gets while it is a member. -/
def callsTo (filter : RoomFilter) (id : Uuid) (rooms : List String) :
    Hub → List HubEvent → List (QueueCall Bytes)
  | _, [] => []
  | h, e :: es => h.concern filter id rooms e ++ callsTo filter id rooms (h.after filter e) es

end Hub

/-- What happens to a hub, its shutdown included. -/
inductive HubCall where
  | event (e : HubEvent)
  | shutdown

namespace HubCall

def events (calls : List HubCall) : List HubEvent :=
  calls.filterMap fun
    | .event e => some e
    | .shutdown => none

/-- The identifiers under which connections come, or ask in vain to come. -/
def registered (calls : List HubCall) : List Uuid := HubEvent.registered (events calls)

end HubCall

namespace Hub

def afterCall (filter : RoomFilter) (h : Hub) : HubCall → Hub
  | .event e => h.after filter e
  | .shutdown => h.beginShutdown

def runCalls (filter : RoomFilter) (h : Hub) (calls : List HubCall) : Hub :=
  calls.foldl (afterCall filter) h

end Hub

/-- Whether the message was put into the queue. -/
def PushOutcome.taken : PushOutcome → Bool
  | .queued | .droppedOldest => true
  | .overflowed | .closed => false

/-- The members that take a message into their queue. -/
def Hub.takers (h : Hub) (filter : RoomFilter) (raw : Bytes) : List Connection :=
  h.connections.filter fun c =>
    h.members.contains c.id && (filter raw).any c.rooms.contains && (c.queue.push raw).1.taken

end Workboard
