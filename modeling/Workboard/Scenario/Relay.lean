import Workboard.Scenario.Brokers
import Workboard.Relay.Bench

/-!
Scenarios of the relay: batches, its loops, and what else happens to its outbox.
-/

namespace Workboard.Scenario

open Json

def readDelivery (v : Value) : Got Delivery := do
  match member? v "panic" with
  | some w => return .panicked (← need "panic" (asText w))
  | none =>
    if (v.member? "panic_static").isSome then return .panicked "static panic text"
    else if (v.member? "panic_number").isSome then return .panicked "unknown panic"
    else
      match member? v "err" with
      | some _ => return .refused (": ".intercalate (← texts v "err"))
      | none => return .accepted

def readScriptedReply (v : Value) : Got ScriptedReply := do
  match v with
  | .string _ => return .accept
  | v => return ⟨← getD v "sleep" asNat 0, ← flag v "cancel", ← readDelivery v⟩

def readHandlers :
    List Value → List ScriptedHandler → HandlerRegistry BenchHandler →
      Got (List ScriptedHandler × HandlerRegistry BenchHandler)
  | [], hs, registry => .ok (hs, registry)
  | v :: vs, hs, registry => do
    let name ← get v "name" asText
    let types ← texts v "types"
    if name = "publisher" then readHandlers vs hs (registry.registerMany types .publisher)
    else
      let replies ← listOf v "outcomes" readScriptedReply
      readHandlers vs (hs ++ [⟨name, replies, 0⟩]) (registry.registerMany types (.scripted hs.length))

def batchReport (r : BatchReport) : Value :=
  obj [("fetched", nat r.fetched), ("processed", nat r.processed), ("failed", nat r.failed),
    ("skipped", nat r.skipped), ("deferred", nat r.deferred)]

def batchFailure : BatchError → Value
  | .outbox e => outboxFailure e
  | .panicked _ => kindOnly "Panic"

def relayCall : RelayCall → Value
  | .handled name id retries ms => .array [str name, uuid id, nat retries, nat ms]
  | .broker c => brokerCall c

def relayRow (r : OutboxRecord) : Value :=
  .array [uuid r.id, nat r.retries, option (fun e => str (cut e)) r.lastError,
    .bool r.processedAt.isSome]

def outcomeMetrics (outcomes : List RowOutcome) : List (String × Value) :=
  counter "outbox_events_total\x7boutcome=\"processed\"\x7d" (outcomes.count .processed) ++
    counter "outbox_events_total\x7boutcome=\"failed\"\x7d" (outcomes.count .failed) ++
    counter "outbox_events_total\x7boutcome=\"skipped\"\x7d" (outcomes.count .skipped)

def backlogMetrics : Option BacklogGauges → List (String × Value)
  | none => []
  | some g =>
    [("outbox_backlog_total", str (toString g.pending)),
      ("outbox_oldest_pending_age_seconds", str (if g.oldestAge = 0 then "0" else "positive"))]

def asOutboxCall (v : Value) : Option OutboxCall := do
  let name ← asText v
  OutboxCall.all.find? fun c => c.name == name

def elapsedValue (w : BenchWorld) : Value := obj [("elapsed", nat (BenchRelay.elapsed w))]

def withLocalBroker (w : BenchWorld) : Option (LocalBroker × BroadcastReader) := do
  return (← w.state.publisher.local?, ← w.state.reader)

/-- Gives up the rows that a named transaction holds. -/
def releaseClaims (name : String) (s : OutboxStore) :
    List (String × Transaction Empty) → OutboxStore × List (String × Transaction Empty)
  | [] => (s, [])
  | e :: es =>
    let (s, rest) := releaseClaims name s es
    if e.1 = name then (s.rollback e.2, rest) else (s, e :: rest)

def runRelayStep (r : BenchRelay) (v : Value) (w : BenchWorld) : Got (Value × BenchWorld) := do
  match ← get v "do" asText with
  | "batch" =>
    let (result_, w) := r.processBatch w
    return (result batchFailure batchReport result_, w)
  | "report" =>
    let (result_, w) := w.report r.now
    return (result batchFailure unit result_, w)
  | "run" =>
    match r.run w with
    | (.panicked, w) => return (kindOnly "Panic", w)
    | (_, w) => return (elapsedValue w, w)
  | "run_metrics" =>
    let w := r.runReports w
    return (elapsedValue w, w)
  | "spawn" =>
    let w := r.runBoth w
    return (elapsedValue w, w)
  | "append" => return (.null, w.appendRows (← listOf v "records" readRecord))
  | "append_later" =>
    return (.null, w.plan (← get v "after" asNat) (.append (← listOf v "records" readRecord)))
  | "fault" =>
    let call ← get v "on" asOutboxCall
    let times ← getD v "times" asNat 1
    return (.null, { w with store := { w.store with faults := w.store.faults.arm call times } })
  | "commit_failure" => return (.null, { w with store := { w.store with failCommits := ← flag v "on" } })
  | "claim" =>
    let name ← get v "tx" asText
    let (rows, store, tx) := w.store.fetchPending .empty (← getD v "limit" asNat 1)
    let (store, others) := releaseClaims name store w.state.claims
    return (list (fun r : OutboxRecord => uuid r.id) rows,
      { w with store := store }.change fun b => { b with claims := (name, tx) :: others })
  | "release" =>
    let name ← get v "tx" asText
    let (store, others) := releaseClaims name w.store w.state.claims
    return (.null, { w with store := store }.change fun b => { b with claims := others })
  | "recv" =>
    match withLocalBroker w with
    | none => return (.array [], w)
    | some (b, reader) =>
      let (items, reader) := b.channel.drain reader
      return (list received items, w.change fun s => { s with reader := some reader })
  | "close" =>
    let (result_, p, calls) := w.state.publisher.close
    return (result brokerFailure unit result_,
      w.change fun s => { s with publisher := p, calls := s.calls ++ calls.map .broker })
  | s => .error ("step " ++ s)

def runRelay (v : Value) : Got Value := do
  let now ← wallClock
  let (handlers, registry) ← readHandlers (← listOf v "handlers" .ok) [] .empty
  let publisher : Publisher := ⟨← listOf v "brokers" readBroker⟩
  let timing : RelayTiming :=
    ⟨← getD v "poll_ms" asNat 10, ← getD v "batch_size" asNat 10, ← getD v "metrics_ms" asNat 50⟩
  let r : BenchRelay := ⟨registry, timing, now⟩
  let records ← listOf v "records" readRecord
  let world : BenchWorld :=
    ⟨{ OutboxStore.empty with records := records.map .ofNew }, [],
      ⟨handlers, publisher, publisher.local?.map (·.channel.subscribe), [], [], 0, 0, [], 1, 0, false,
        false, none⟩⟩
  let (shown, w) ← steps (fun w s => do
    let w := BenchRelay.startStep w (← opt s "cancel_after" asNat) (← flag s "cancelled")
    let (shown, w) ← runRelayStep r s w
    let w := if ← settles s then r.settle w else w
    return (w, obj [("r", shown), ("calls", list relayCall w.state.calls),
      ("rows", list relayRow w.store.records)])) world (← listOf v "steps" .ok)
  return obj [("metrics", obj (outcomeMetrics w.outcomes ++ backlogMetrics w.state.gauges)),
    ("registry", obj [("types", list str registry.eventTypes), ("empty", .bool registry.isEmpty),
      ("debug", str registry.describe)]),
    ("steps", .array shown)]

end Workboard.Scenario
