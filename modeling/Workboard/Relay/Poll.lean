import Workboard.Relay.Batch

/-!
The loop that delivers batches. It goes on at once while batches come back full, and waits otherwise;
it stops between two batches only.
-/

namespace Workboard

/-- The loop and the report on the backlog, with the defaults that a relay starts from. -/
structure RelayTiming where
  pollMs : Nat
  batchSize : Nat
  metricsMs : Nat

def RelayTiming.standard : RelayTiming := ⟨500, 100, 15000⟩

/-- There may be more rows if every place of the batch was taken and no row stayed behind. -/
def BatchReport.isFull (r : BatchReport) (batchSize : Nat) : Bool :=
  r.fetched == batchSize && r.failed == 0 && r.deferred == 0

/-- A relay in a place where time passes and where it can be told to stop. -/
structure PollingRelay (σ γ : Type) extends Relay σ γ where
  cancelled : RelayWorld σ → Bool
  /-- Lets time pass until the next poll is due or the relay is told to stop. -/
  wait : RelayWorld σ → RelayWorld σ

inductive LoopEnd where
  | stopped
  | panicked
  | outOfFuel
  deriving DecidableEq

namespace PollingRelay

variable {σ γ : Type}

/-- Whether the next batch follows at once. -/
def goesOn (relay : PollingRelay σ γ) (r : Except BatchError BatchReport) : Bool :=
  match r with
  | .ok report => report.isFull relay.batchSize
  | .error _ => false

def run (relay : PollingRelay σ γ) : Nat → RelayWorld σ → LoopEnd × RelayWorld σ
  | 0, w => (.outOfFuel, w)
  | fuel + 1, w =>
    if relay.cancelled w then (.stopped, w)
    else
      match relay.processBatch w with
      | (.error (.panicked _), w) => (.panicked, w)
      | (r, w) => run relay fuel (if relay.goesOn r then w else relay.wait w)

end PollingRelay

/-!
The loop that delivers batches, step by step. Others may act between any two of its steps: they may tell it to
stop, take rows and give them back, and have calls of the outbox fail.
-/

/-- Where the loop stands between two steps. -/
inductive PollPlace where
  | ready
  | delivering (rows : List OutboxRecord) (b : Batch)
  | resting
  | ended (how : LoopEnd)

/-- What a step of the loop tells. A batch breaks where a row cannot be marked, and is lost where it cannot be
committed. -/
inductive PollSign where
  | began
  | turn (r : OutboxRecord) (t : Turn)
  | broke (e : OutboxError)
  | committed (report : BatchReport)
  | lost (e : OutboxError)
  | woke
  | ended (how : LoopEnd)
  deriving DecidableEq

structure PollState (σ : Type) where
  place : PollPlace
  world : RelayWorld σ

/-- A step of the loop, or something that others do. -/
inductive PollAct (σ : Type) where
  | step
  | others (change : RelayWorld σ → RelayWorld σ)

namespace PollState

variable {σ : Type}

def ready (w : RelayWorld σ) : PollState σ := ⟨.ready, w⟩

/-- Where the loop stands when it was run for some time. -/
def ofRun : LoopEnd × RelayWorld σ → PollState σ
  | (.outOfFuel, w) => .ready w
  | (how, w) => ⟨.ended how, w⟩

end PollState

namespace PollingRelay

variable {σ γ : Type}

/-- One step. The loop is told to stop only where it looks for that, just before it begins a batch. -/
def step (relay : PollingRelay σ γ) (s : PollState σ) : PollSign × PollState σ :=
  match s.place with
  | .ready =>
    if relay.cancelled s.world then (.ended .stopped, ⟨.ended .stopped, s.world⟩)
    else
      match relay.begin s.world.store with
      | (.error (.panicked _), store) => (.began, ⟨.ended .panicked, { s.world with store := store }⟩)
      | (.error (.outbox _), store) => (.began, ⟨.resting, { s.world with store := store }⟩)
      | (.ok (rows, b), store) => (.began, ⟨.delivering rows b, { s.world with store := store }⟩)
  | .delivering (r :: rows) b =>
    match b.next relay.toRelay r s.world with
    | (t, .ok c, w) => (.turn r t, ⟨.delivering rows c, w⟩)
    | (_, .error e, w) => (.broke e, ⟨.resting, { w with store := w.store.rollback b.tx }⟩)
  | .delivering [] b =>
    match s.world.store.tryCommit b.tx with
    | (.error e, store) => (.lost e, ⟨.resting, { s.world with store := store }⟩)
    | (.ok _, store) =>
      (.committed b.report,
        ⟨if b.report.isFull relay.batchSize then .ready else .resting, { s.world with store := store }⟩)
  | .resting => (.woke, ⟨.ready, relay.wait s.world⟩)
  | .ended how => (.ended how, s)

def act (relay : PollingRelay σ γ) (s : PollState σ) : PollAct σ → List PollSign × PollState σ
  | .step => ([(relay.step s).1], (relay.step s).2)
  | .others change => ([], ⟨s.place, change s.world⟩)

/-- What happens in turn, with what the steps of the loop tell. -/
def follow (relay : PollingRelay σ γ) : PollState σ → List (PollAct σ) → List PollSign × PollState σ
  | s, [] => ([], s)
  | s, a :: acts =>
    ((relay.act s a).1 ++ (follow relay (relay.act s a).2 acts).1, (follow relay (relay.act s a).2 acts).2)

end PollingRelay

end Workboard
