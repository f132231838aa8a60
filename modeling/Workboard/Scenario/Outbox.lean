import Workboard.Scenario.Report
import Workboard.Outbox.Session

/-!
Scenarios of transactions on one outbox.
-/

namespace Workboard.Scenario

open Json

def readSessionStep (v : Value) : Got SessionStep := do
  let within (s : TransactionStep) : Got SessionStep := do return .within (← get v "tx" asText) s
  match ← get v "do" asText with
  | "begin" => return .begin (← get v "tx" asText)
  | "append" => within (.append (← listOf v "records" readRecord))
  | "stage" => within (.stage (← get v "label" asText))
  | "fetch" => within (.fetch (← getD v "limit" asNat 100))
  | "mark_processed" => within (.markProcessed (← get v "id" asUuid))
  | "mark_failed" => within (.markFailed (← get v "id" asUuid) (← get v "error" asText))
  | "appended" => within .appended
  | "commit" => within .commit
  | "rollback" => within .rollback
  | "drop" => within .drop
  | "commit_failure" => return .failCommits (← flag v "on")
  | "records" => return .records
  | "pending" => return .pending
  | "find" => return .find (← get v "id" asUuid)
  | "backlog" => return .backlog
  | s => .error ("step " ++ s)

def sessionAnswer : SessionAnswer → Value
  | .none => .null
  | .noTransaction => kindOnly "NoTx"
  | .done r => result outboxFailure unit r
  | .ids ids => ok (list uuid ids)
  | .count n => nat n
  | .records rows => list datedRecord rows
  | .pending ids => list uuid ids
  | .found row => option datedRecord row
  | .backlog b => obj [("pending", nat b.pending), ("oldest", option .instant b.oldest)]

def runOutbox (v : Value) : Got Value := do
  let now ← wallClock
  let (shown, _) ← steps (fun s w => do
    let (r, s) := OutboxSession.step { s with staged := [] } now (← readSessionStep w)
    return (s, obj [("r", sessionAnswer r), ("records", nat s.store.records.length),
      ("pending", nat s.store.pending.length), ("staged", list str s.staged)]))
    OutboxSession.empty (← listOf v "steps" .ok)
  return .array shown

def runBacklogAge (v : Value) : Got Value := do
  let b : Backlog := ⟨← get v "pending" asNat, ← opt v "oldest" asInstant⟩
  let n := b.oldestAge (← get v "now" asInstant)
  return obj [("secs", nat (n / 1000000000)), ("nanos", nat (n % 1000000000))]

end Workboard.Scenario
