import Workboard.Outbox.Session

/-!
What was asked of an outbox, as its steps and their answers tell it: the calls of each transaction that went
well, and which transactions have committed.
-/

namespace Workboard

/-- A call of a transaction that bears on rows. -/
inductive RowCall where
  | append (records : List NewRecord)
  | mark (update : RowUpdate)

namespace RowCall

/-- What a call does to rows where it takes effect at once. -/
def perform (rows : List OutboxRecord) : RowCall → List OutboxRecord
  | .append records => rows ++ records.map .ofNew
  | .mark update => update.apply rows

def added : RowCall → List NewRecord
  | .append records => records
  | .mark _ => []

def mark? : RowCall → Option RowUpdate
  | .append _ => none
  | .mark update => some update

end RowCall

namespace RowUpdate

/-- The text of a failure that is marked on a row. -/
def failure? (row : Uuid) : RowUpdate → Option String
  | .processed _ _ => none
  | .failed id error => if id = row then some error else none

end RowUpdate

/-- The call that a step makes, if its answer says that it went well. -/
def TransactionStep.call? (now : Instant) : TransactionStep → SessionAnswer → Option RowCall
  | .append records, .done (.ok ()) => some (.append records)
  | .markProcessed id, .done (.ok ()) => some (.mark (.processed id now))
  | .markFailed id error, .done (.ok ()) => some (.mark (.failed id error))
  | _, _ => none

/-- The calls of the transactions that are open, by name, and of those that have committed, in the order of
their commits. -/
structure Ledger where
  opened : String → List RowCall
  committed : List (List RowCall)

namespace Ledger

def empty : Ledger := ⟨fun _ => [], []⟩

def put (l : Ledger) (name : String) (calls : List RowCall) : Ledger :=
  { l with opened := fun other => if other = name then calls else l.opened other }

/-- Takes down the step of a transaction. -/
def within (l : Ledger) (now : Instant) (name : String) : TransactionStep → SessionAnswer → Ledger
  | .commit, .done (.ok ()) => ⟨(l.put name []).opened, l.committed ++ [l.opened name]⟩
  | step, answer =>
    if step.ends then l.put name []
    else l.put name (l.opened name ++ (step.call? now answer).toList)

def after (l : Ledger) (now : Instant) (answer : SessionAnswer) : SessionStep → Ledger
  | .begin name => l.put name []
  | .within name step => l.within now name step answer
  | _ => l

/-- The calls of all transactions that have committed, one transaction after another. -/
def calls (l : Ledger) : List RowCall := l.committed.flatten

/-- The texts of the failures that committed transactions have marked on a row. -/
def failures (l : Ledger) (row : Uuid) : List String :=
  (l.calls.filterMap RowCall.mark?).filterMap (RowUpdate.failure? row)

end Ledger

namespace OutboxSession

/-- What a history adds to a ledger. -/
def record (s : OutboxSession) (l : Ledger) : List (Instant × SessionStep) → Ledger
  | [] => l
  | (now, step) :: history =>
    let (answer, s) := s.step now step
    s.record (l.after now answer step) history

end OutboxSession

end Workboard
