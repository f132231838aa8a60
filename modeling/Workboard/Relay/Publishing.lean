import Workboard.Broker.Publisher
import Workboard.Relay.Batch

/-!
A relay that hands every row to a publisher. Brokers may answer in any way, and all calls of them are kept.
-/

namespace Workboard

/-- Why a broker did not take a message. -/
inductive PublishFailure where
  | error (e : BrokerError)
  | panicked (reason : String)

/-- A call of a broker by its place among the brokers. -/
structure PublishCall where
  place : Nat
  message : BrokerMessage
  accepted : Bool
  deriving DecidableEq

/-- Brokers of type `β` with their places, and all calls of them so far. -/
structure Publishing (β : Type) where
  brokers : List (β × Nat)
  calls : List PublishCall

namespace Publishing

variable {β : Type}

def ofBrokers (brokers : List β) : Publishing β := ⟨brokers.zipIdx, []⟩

variable (publish : BrokerMessage → β → Except PublishFailure Unit × β)

def call (m : BrokerMessage) : β × Nat → Except PublishFailure Unit × (β × Nat) × List PublishCall
  | (b, place) =>
    let (result, b) := publish m b
    (result, (b, place), [⟨place, m, result.isOk⟩])

def delivery : Except PublishFailure Unit → Delivery
  | .ok () => .accepted
  | .error (.error e) => .refused e.message
  | .error (.panicked reason) => .panicked reason

/-- Publishes a row to the brokers in turn. -/
def handle (r : OutboxRecord) (p : Publishing β) : Delivery × Publishing β :=
  let (result, brokers, calls) := inTurn (call publish (.ofRecord r)) p.brokers
  (delivery result, ⟨brokers, p.calls ++ calls⟩)

/-- A relay whose only handler is the publisher. -/
def relay (registry : HandlerRegistry Unit) (batchSize : Nat) (now : Instant) : Relay (Publishing β) Unit where
  registry := registry
  handle _ r w :=
    let (d, p) := w.state.handle publish r
    (d, { w with state := p })
  batchSize := batchSize
  now := now

end Publishing

/-- The calls of one attempt to deliver a row to a number of brokers: they are called in their order with one
message, up to the first that does not take it. -/
def PublishCall.Attempts (brokers : Nat) (r : OutboxRecord) (d : Delivery) (calls : List PublishCall) : Prop :=
  ∃ k ≤ brokers,
    calls = (List.range k).map (fun i => ⟨i, .ofRecord r, decide (i + 1 < k) || decide (d = .accepted)⟩) ∧
    (d = .accepted → k = brokers) ∧ (d ≠ .accepted → 0 < k)

/-- How often a broker took the message of a row. -/
def PublishCall.takenBy (calls : List PublishCall) (place : Nat) (id : Uuid) : Nat :=
  calls.countP fun c => c.place = place && c.message.eventId = id && c.accepted

end Workboard
