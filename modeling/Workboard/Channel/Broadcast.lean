/-!
A channel in which every reader sees every message sent after it subscribed, unless it falls behind by
more than the channel keeps.
-/

namespace Workboard

/-- The least power of two that is not below `n`. -/
def roundUp (n : Nat) : Nat := Nat.nextPowerOfTwo n

/-- The last messages that were sent, oldest first, and how many were sent in all. -/
structure Broadcast (α : Type) where
  capacity : Nat
  kept : List α
  sent : Nat

/-- A reader is the number of messages it has passed. -/
structure BroadcastReader where
  passed : Nat
  deriving DecidableEq

inductive Received (α : Type) where
  | lagged (missed : Nat)
  | message (m : α)

namespace Broadcast

variable {α : Type}

/-- A channel that keeps at least `capacity` messages. -/
def ofCapacity (capacity : Nat) : Broadcast α := ⟨roundUp (max capacity 1), [], 0⟩

def send (c : Broadcast α) (m : α) : Broadcast α :=
  let kept := c.kept ++ [m]
  { c with kept := kept.drop (kept.length - c.capacity), sent := c.sent + 1 }

def subscribe (c : Broadcast α) : BroadcastReader := ⟨c.sent⟩

/-- How many messages were sent before the oldest that is kept. -/
def dropped (c : Broadcast α) : Nat := c.sent - c.kept.length

/-- The next thing for a reader. A reader that fell behind is told how many messages it missed and goes on
with the oldest that is kept. -/
def read? (c : Broadcast α) (r : BroadcastReader) : Option (Received α × BroadcastReader) :=
  if r.passed < c.dropped then some (.lagged (c.dropped - r.passed), ⟨c.dropped⟩)
  else (c.kept[r.passed - c.dropped]?).map fun m => (.message m, ⟨r.passed + 1⟩)

/-- The next message for a reader, however many it missed. -/
def next? (c : Broadcast α) (r : BroadcastReader) : Option α × BroadcastReader :=
  let passed := max r.passed c.dropped
  match c.kept[passed - c.dropped]? with
  | some m => (some m, ⟨passed + 1⟩)
  | none => (none, ⟨passed⟩)

def drain (c : Broadcast α) (r : BroadcastReader) : List (Received α) × BroadcastReader :=
  let lag := if r.passed < c.dropped then [Received.lagged (c.dropped - r.passed)] else []
  let passed := max r.passed c.dropped
  (lag ++ (c.kept.drop (passed - c.dropped)).map .message, ⟨c.sent⟩)

/-- The messages that wait for a reader, however many it missed. -/
def rest (c : Broadcast α) (r : BroadcastReader) : List α × BroadcastReader :=
  (c.kept.drop (max r.passed c.dropped - c.dropped), ⟨c.sent⟩)

end Broadcast

end Workboard
