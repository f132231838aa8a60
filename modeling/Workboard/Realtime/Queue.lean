/-!
The bounded queue of messages that wait for one connection. A full queue gives up its oldest message for
a new one; a whole capacity of such losses without a delivery between them closes the queue.
-/

namespace Workboard

inductive PushOutcome where
  | queued
  /-- The message was taken and the oldest one given up. -/
  | droppedOldest
  /-- The reader is too slow, and the queue is closed. -/
  | overflowed
  | closed
  deriving DecidableEq

/-- What a reader finds. -/
inductive NextMessage (α : Type) where
  | message (m : α)
  | closed
  | pending
  deriving DecidableEq

/-- Messages that wait, oldest first, and the losses since the last delivery. -/
structure OutboundQueue (α : Type) where
  capacity : Nat
  items : List α
  drops : Nat
  closed : Bool
  deriving DecidableEq

namespace OutboundQueue

variable {α : Type}

/-- A queue holds at least one message. -/
def ofCapacity (capacity : Nat) : OutboundQueue α := ⟨max capacity 1, [], 0, false⟩

def push (q : OutboundQueue α) (m : α) : PushOutcome × OutboundQueue α :=
  if q.closed then (.closed, q)
  else if q.items.length < q.capacity then (.queued, { q with items := q.items ++ [m] })
  else if q.capacity ≤ q.drops + 1 then
    (.overflowed, { q with items := [], drops := q.drops + 1, closed := true })
  else (.droppedOldest, { q with items := q.items.drop 1 ++ [m], drops := q.drops + 1 })

/-- Takes the oldest message, unless the queue is closed. -/
def next (q : OutboundQueue α) : NextMessage α × OutboundQueue α :=
  if q.closed then (.closed, q)
  else
    match q.items with
    | [] => (.pending, q)
    | m :: rest => (.message m, { q with items := rest, drops := 0 })

def close (q : OutboundQueue α) : OutboundQueue α := { q with closed := true }

end OutboundQueue

end Workboard
