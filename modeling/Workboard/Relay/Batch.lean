import Workboard.Outbox.Store
import Workboard.Json.Value
import Workboard.Text.Basic

/-!
Delivering a batch of rows in one transaction, each to the handler that is registered for its event type. A row that
fails is kept for a later batch, and so are the rows of its aggregate behind it; the transaction commits whatever
became of single rows.
-/

namespace Workboard

/-- Handlers by event type, sorted by event type. -/
structure HandlerRegistry (γ : Type) where
  entries : List (String × γ)

namespace HandlerRegistry

variable {γ : Type}

def empty : HandlerRegistry γ := ⟨[]⟩

/-- The handler that is registered last for an event type counts. -/
def register (r : HandlerRegistry γ) (eventType : String) (handler : γ) : HandlerRegistry γ :=
  ⟨Json.putMember eventType handler r.entries⟩

def registerMany (r : HandlerRegistry γ) (eventTypes : List String) (handler : γ) : HandlerRegistry γ :=
  eventTypes.foldl (fun r t => r.register t handler) r

def get? (r : HandlerRegistry γ) (eventType : String) : Option γ :=
  (r.entries.find? fun e => e.1 = eventType).map (·.2)

def eventTypes (r : HandlerRegistry γ) : List String := r.entries.map (·.1)

def isEmpty (r : HandlerRegistry γ) : Bool := r.entries.isEmpty

def describe (r : HandlerRegistry γ) : String :=
  "HandlerRegistry \x7b event_types: [" ++ ", ".intercalate (r.eventTypes.map Text.quoted) ++ "] \x7d"

end HandlerRegistry

inductive Delivery where
  | accepted
  | refused (reason : String)
  | panicked (reason : String)
  deriving DecidableEq

inductive RowOutcome where
  | processed
  | failed
  | skipped
  deriving DecidableEq

/-- What became of the rows of a batch. A row is deferred if one of its aggregate before it failed. -/
structure BatchReport where
  fetched : Nat
  processed : Nat
  failed : Nat
  skipped : Nat
  deferred : Nat
  deriving DecidableEq

inductive BatchError where
  | outbox (e : OutboxError)
  | panicked (reason : String)
  deriving DecidableEq

/-- The outbox, the outcomes counted so far, and what the handlers act on. -/
structure RelayWorld (σ : Type) where
  store : OutboxStore
  outcomes : List RowOutcome
  state : σ

/-- A handler acts on the world that it finds. -/
structure Relay (σ γ : Type) where
  registry : HandlerRegistry γ
  handle : γ → OutboxRecord → RelayWorld σ → Delivery × RelayWorld σ
  batchSize : Nat
  now : Instant

/-- What a row waits for when its turn comes. -/
inductive RowPlan (γ : Type) where
  | defer
  | skip
  | hand (handler : γ)

/-- What was done with a row when its turn came. -/
inductive Turn where
  | deferred
  | skipped
  | handed (d : Delivery)
  deriving DecidableEq

structure Batch where
  tx : Transaction Empty
  blocked : List Uuid
  report : BatchReport

namespace Batch

def start (tx : Transaction Empty) (rows : List OutboxRecord) : Batch :=
  ⟨tx, [], ⟨rows.length, 0, 0, 0, 0⟩⟩

def plan {γ : Type} (registry : HandlerRegistry γ) (b : Batch) (r : OutboxRecord) : RowPlan γ :=
  if b.blocked.contains r.aggregateId then .defer
  else
    match registry.get? r.eventType with
    | some handler => .hand handler
    | none => .skip

def defer (b : Batch) : Batch := { b with report := { b.report with deferred := b.report.deferred + 1 } }

/-- The text that is kept with a row that was not delivered. -/
def failureText : Delivery → Option String
  | .accepted => none
  | .refused reason => some reason
  | .panicked reason => some ("handler panicked: " ++ reason)

variable {σ : Type}

/-- Goes on with the transaction that the outbox answers to a mark, and counts what became of the row. -/
def mark (w : RelayWorld σ) (answer : Except OutboxError (Transaction Empty) × OutboxStore)
    (outcome : RowOutcome) (goOn : Transaction Empty → Batch) : Except OutboxError Batch × RelayWorld σ :=
  match answer with
  | (.error e, store) => (.error e, { w with store := store })
  | (.ok tx, store) => (.ok (goOn tx), { w with store := store, outcomes := w.outcomes ++ [outcome] })

/-- A row that no handler wants counts as processed. -/
def skip (b : Batch) (now : Instant) (r : OutboxRecord) (w : RelayWorld σ) :
    Except OutboxError Batch × RelayWorld σ :=
  mark w (w.store.tryMark b.tx (.processed r.id now)) .skipped fun tx =>
    { b with tx := tx, report := { b.report with skipped := b.report.skipped + 1 } }

/-- Takes down how the handling of a row went. -/
def settle (b : Batch) (now : Instant) (r : OutboxRecord) (d : Delivery) (w : RelayWorld σ) :
    Except OutboxError Batch × RelayWorld σ :=
  match failureText d with
  | none =>
    mark w (w.store.tryMark b.tx (.processed r.id now)) .processed fun tx =>
      { b with tx := tx, report := { b.report with processed := b.report.processed + 1 } }
  | some text =>
    mark w (w.store.tryMark b.tx (.failed r.id text)) .failed fun tx =>
      ⟨tx, b.blocked ++ [r.aggregateId], { b.report with failed := b.report.failed + 1 }⟩

variable {γ : Type}

def next (relay : Relay σ γ) (b : Batch) (r : OutboxRecord) (w : RelayWorld σ) :
    Turn × Except OutboxError Batch × RelayWorld σ :=
  match b.plan relay.registry r with
  | .defer => (.deferred, .ok b.defer, w)
  | .skip => (.skipped, b.skip relay.now r w)
  | .hand handler =>
    let (d, w) := relay.handle handler r w
    (.handed d, b.settle relay.now r d w)

/-- The rows of a batch in turn, with what was done with each. An error ends the transaction without
effect; the rows behind have no turn then. -/
def deliver (relay : Relay σ γ) :
    List OutboxRecord → Batch → RelayWorld σ →
      List (OutboxRecord × Turn) × Except OutboxError Batch × RelayWorld σ
  | [], b, w => ([], .ok b, w)
  | r :: rows, b, w =>
    match b.next relay r w with
    | (t, .ok b, w) =>
      let (turns, e) := deliver relay rows b w
      ((r, t) :: turns, e)
    | (t, .error e, w) => ([(r, t)], .error e, { w with store := w.store.rollback b.tx })

end Batch

namespace Relay

variable {σ γ : Type}

/-- Opens a transaction and takes the rows of a batch, unless that is to fail now. -/
def begin (relay : Relay σ γ) (s : OutboxStore) :
    Except BatchError (List OutboxRecord × Batch) × OutboxStore :=
  match s.strike .beginPanic with
  | (true, s) => (.error (.panicked "begin panicked"), s)
  | (false, s) =>
    match s.strike .begin with
    | (true, s) => (.error (.outbox OutboxCall.begin.fault), s)
    | (false, s) =>
      match s.tryFetch .empty relay.batchSize with
      | (.error e, s, _) => (.error (.outbox e), (s.strike .rollback).2)
      | (.ok rows, s, tx) => (.ok (rows, .start tx rows), s)

/-- Delivers one batch and commits; tells what was done with each row. -/
def runBatch (relay : Relay σ γ) (w : RelayWorld σ) :
    List (OutboxRecord × Turn) × Except BatchError BatchReport × RelayWorld σ :=
  match relay.begin w.store with
  | (.error e, store) => ([], .error e, { w with store := store })
  | (.ok (rows, b), store) =>
    match b.deliver relay rows { w with store := store } with
    | (turns, .error e, w) => (turns, .error (.outbox e), w)
    | (turns, .ok b, w) =>
      match w.store.tryCommit b.tx with
      | (.error e, store) => (turns, .error (.outbox e), { w with store := store })
      | (.ok _, store) => (turns, .ok b.report, { w with store := store })

def processBatch (relay : Relay σ γ) (w : RelayWorld σ) :
    Except BatchError BatchReport × RelayWorld σ :=
  (relay.runBatch w).2

end Relay

/-!
What the turns of a batch come to: how a report counts them, what they leave of the rows, and which calls of
handlers they stand for.
-/

namespace Turn

/-- What becomes of the row; it is left for a later batch if it is deferred. -/
def outcome : Turn → Option RowOutcome
  | .deferred => none
  | .skipped => some .skipped
  | .handed .accepted => some .processed
  | .handed _ => some .failed

/-- The row behind its turn, once the batch is committed. -/
def leave (now : Instant) (r : OutboxRecord) : Turn → OutboxRecord
  | .deferred => r
  | .skipped | .handed .accepted => { r with processedAt := some now }
  | .handed (.refused reason) => { r with retries := r.retries + 1, lastError := some reason }
  | .handed (.panicked reason) =>
    { r with retries := r.retries + 1, lastError := some ("handler panicked: " ++ reason) }

/-- The rows that were handed over, with what was answered. -/
def handedOver (turns : List (OutboxRecord × Turn)) : List (OutboxRecord × Delivery) :=
  turns.filterMap fun e =>
    match e.2 with
    | .handed d => some (e.1, d)
    | _ => none

end Turn

/-- The report that counts the turns. -/
def BatchReport.ofTurns (turns : List (OutboxRecord × Turn)) : BatchReport where
  fetched := turns.length
  processed := turns.countP fun e => e.2.outcome = some .processed
  failed := turns.countP fun e => e.2.outcome = some .failed
  skipped := turns.countP fun e => e.2.outcome = some .skipped
  deferred := turns.countP fun e => e.2.outcome = none

/-- A row behind the turns of a batch. -/
def OutboxRecord.after (now : Instant) (turns : List (OutboxRecord × Turn)) (r : OutboxRecord) : OutboxRecord :=
  match turns.find? fun e => e.1.id = r.id with
  | some e => e.2.leave now r
  | none => r

namespace Relay

variable {σ γ : Type}

/-- The calls of handlers that lead from one state to another: each row is given once, in turn, to the handler
that is registered for it. -/
inductive Handles (relay : Relay σ γ) : σ → List (OutboxRecord × Delivery) → σ → Prop
  | none (s : σ) : Handles relay s [] s
  | call {handler : γ} {r : OutboxRecord} {w : RelayWorld σ} {rows : List (OutboxRecord × Delivery)} {s : σ}
      (wanted : relay.registry.get? r.eventType = some handler)
      (rest : Handles relay (relay.handle handler r w).2.state rows s) :
      Handles relay w.state ((r, (relay.handle handler r w).1) :: rows) s

/-- Whose turn it is to do what: rows wait behind a row of their aggregate that failed, and what no handler wants
is skipped. -/
structure TakesTurns (relay : Relay σ γ) (turns : List (OutboxRecord × Turn)) : Prop where
  deferred : ∀ before r t after, turns = before ++ (r, t) :: after →
    (t = .deferred ↔ ∃ e ∈ before, e.2.outcome = some .failed ∧ e.1.aggregateId = r.aggregateId)
  skipped : ∀ r t, (r, t) ∈ turns → t ≠ .deferred → (t = .skipped ↔ relay.registry.get? r.eventType = .none)

end Relay

/-!
What happens to the outbox of a relay over time: batches, and what is written between them.
-/

inductive RelayEvent (σ : Type) where
  | batch (now : Instant)
  /-- A transaction of someone else commits new rows. -/
  | append (records : List NewRecord)
  /-- From now on commits fail, or no longer fail. -/
  | failCommits (on : Bool)
  /-- A call of the outbox is to fail a number of times. -/
  | fault (call : OutboxCall) (times : Nat)
  | change (state : σ)

namespace Relay

variable {σ γ : Type}

def at_ (relay : Relay σ γ) (now : Instant) : Relay σ γ := { relay with now := now }

def after (relay : Relay σ γ) (w : RelayWorld σ) : RelayEvent σ → RelayWorld σ
  | .batch now => ((relay.at_ now).processBatch w).2
  | .append records => { w with store := (w.store.commit (Transaction.empty.append records : Transaction Empty)).2 }
  | .failCommits on => { w with store := { w.store with failCommits := on } }
  | .fault call times => { w with store := { w.store with faults := w.store.faults.arm call times } }
  | .change state => { w with state := state }

def run (relay : Relay σ γ) (w : RelayWorld σ) (history : List (RelayEvent σ)) : RelayWorld σ :=
  history.foldl relay.after w

end Relay

end Workboard
