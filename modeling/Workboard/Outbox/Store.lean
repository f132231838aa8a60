import Workboard.Outbox.Record
import Workboard.Fault

/-!
The outbox and its transactions. What a transaction writes is seen when it commits; rows it fetches are
its own until it ends, and other transactions pass over them.
-/

namespace Workboard

/-- The calls of an outbox that may be told to fail. -/
inductive OutboxCall where
  | begin
  | fetch
  | append
  | markProcessed
  | markFailed
  | commit
  | rollback
  | backlog
  | beginPanic
  | backlogPanic
  deriving DecidableEq

namespace OutboxCall

def name : OutboxCall → String
  | .begin => "begin"
  | .fetch => "fetch"
  | .append => "append"
  | .markProcessed => "mark_processed"
  | .markFailed => "mark_failed"
  | .commit => "commit"
  | .rollback => "rollback"
  | .backlog => "backlog"
  | .beginPanic => "begin_panic"
  | .backlogPanic => "backlog_panic"

def all : List OutboxCall :=
  [.begin, .fetch, .append, .markProcessed, .markFailed, .commit, .rollback, .backlog, .beginPanic,
    .backlogPanic]

def fault (c : OutboxCall) : OutboxError := .storage (c.name ++ " fault")

end OutboxCall

/-- The committed rows in the order in which they were written, and the rows that are taken by a
transaction. -/
structure OutboxStore where
  records : List OutboxRecord
  claimed : List Uuid
  failCommits : Bool
  faults : Faults OutboxCall

/-- A mark on a row that takes effect at commit. -/
inductive RowUpdate where
  | processed (id : Uuid) (now : Instant)
  | failed (id : Uuid) (error : String)

/-- An open transaction; `β` is the kind of write that it carries besides rows of the outbox. -/
structure Transaction (β : Type) where
  appended : List NewRecord
  updates : List RowUpdate
  staged : List β
  claimed : List Uuid

/-- Changes the first element that satisfies a test. -/
def modifyFirst {α : Type} (p : α → Bool) (f : α → α) : List α → List α
  | [] => []
  | a :: as => if p a then f a :: as else a :: modifyFirst p f as

namespace RowUpdate

def id : RowUpdate → Uuid
  | .processed id _ => id
  | .failed id _ => id

/-- The call that makes a mark. -/
def call : RowUpdate → OutboxCall
  | .processed _ _ => .markProcessed
  | .failed _ _ => .markFailed

def apply (records : List OutboxRecord) : RowUpdate → List OutboxRecord
  | .processed id now => modifyFirst (fun r => r.id = id) (·.process now) records
  | .failed id error => modifyFirst (fun r => r.id = id) (·.fail error) records

end RowUpdate

namespace Transaction

variable {β : Type}

def empty : Transaction β := ⟨[], [], [], []⟩

def stage (tx : Transaction β) (write : β) : Transaction β :=
  { tx with staged := tx.staged ++ [write] }

def append (tx : Transaction β) (records : List NewRecord) : Transaction β :=
  { tx with appended := tx.appended ++ records }

end Transaction

namespace OutboxStore

variable {β : Type}

def empty : OutboxStore := ⟨[], [], false, .none⟩

def pending (s : OutboxStore) : List OutboxRecord := s.records.filter (·.isPending)

def find? (s : OutboxStore) (id : Uuid) : Option OutboxRecord := s.records.find? fun r => r.id = id

/-- Whether a call is to fail now. -/
def strike (s : OutboxStore) (call : OutboxCall) : Bool × OutboxStore :=
  let (hit, faults) := s.faults.strike call
  (hit, { s with faults := faults })

/-- The earlier of two creation times; the first where they are equal. -/
def earlier (oldest : Option Instant) (r : OutboxRecord) : Option Instant :=
  match oldest with
  | some t => if t.le r.createdAt then some t else some r.createdAt
  | none => some r.createdAt

def backlog (s : OutboxStore) : Backlog :=
  ⟨s.pending.length, s.pending.foldl earlier none⟩

/-- The rows a transaction may take, in order of creation; of two created at one time the one that was
written first comes first. -/
def available (s : OutboxStore) : List OutboxRecord :=
  (s.records.filter fun r => r.isPending && !s.claimed.contains r.id).mergeSort fun a b =>
    a.createdAt.le b.createdAt

def claim (claimed : List Uuid) (id : Uuid) : List Uuid :=
  if claimed.contains id then claimed else claimed ++ [id]

/-- Takes up to `limit` rows for a transaction. -/
def fetchPending (s : OutboxStore) (tx : Transaction β) (limit : Nat) :
    List OutboxRecord × OutboxStore × Transaction β :=
  let batch := s.available.take limit
  let ids := batch.map (·.id)
  (batch, { s with claimed := ids.foldl claim s.claimed }, { tx with claimed := tx.claimed ++ ids })

/-- A row can be marked if it was written or if the transaction took it. -/
def knows (s : OutboxStore) (tx : Transaction β) (id : Uuid) : Bool :=
  tx.claimed.contains id || s.records.any fun r => r.id = id

def mark (s : OutboxStore) (tx : Transaction β) (u : RowUpdate) : Except OutboxError (Transaction β) :=
  if s.knows tx u.id then .ok { tx with updates := tx.updates ++ [u] } else .error (.notFound u.id)

def rollback (s : OutboxStore) (tx : Transaction β) : OutboxStore :=
  { s with claimed := s.claimed.filter fun id => !tx.claimed.contains id }

/-- The rows after a commit: new rows are written at the end, then marks are applied in order. -/
def written (s : OutboxStore) (tx : Transaction β) : List OutboxRecord :=
  tx.updates.foldl RowUpdate.apply (s.records ++ tx.appended.map OutboxRecord.ofNew)

/-- Ends a transaction. If the commit succeeds, the answer holds the staged writes to carry out. -/
def commit (s : OutboxStore) (tx : Transaction β) : Except OutboxError (List β) × OutboxStore :=
  if s.failCommits then (.error (.commit "injected commit failure"), s.rollback tx)
  else (.ok tx.staged, { s.rollback tx with records := s.written tx })

/-- Takes rows for a transaction, unless that is to fail now. -/
def tryFetch (s : OutboxStore) (tx : Transaction β) (limit : Nat) :
    Except OutboxError (List OutboxRecord) × OutboxStore × Transaction β :=
  match s.strike .fetch with
  | (true, s) => (.error OutboxCall.fetch.fault, s, tx)
  | (false, s) =>
    let (rows, s, tx) := s.fetchPending tx limit
    (.ok rows, s, tx)

/-- Adds rows to a transaction, unless that is to fail now. -/
def tryAppend (s : OutboxStore) (tx : Transaction β) (records : List NewRecord) :
    Except OutboxError (Transaction β) × OutboxStore :=
  match s.strike .append with
  | (true, s) => (.error OutboxCall.append.fault, s)
  | (false, s) => (.ok (tx.append records), s)

/-- Marks a row, unless that is to fail now. -/
def tryMark (s : OutboxStore) (tx : Transaction β) (u : RowUpdate) :
    Except OutboxError (Transaction β) × OutboxStore :=
  match s.strike u.call with
  | (true, s) => (.error u.call.fault, s)
  | (false, s) => (s.mark tx u, s)

/-- Commits, unless that is to fail now. Either way the transaction has ended. -/
def tryCommit (s : OutboxStore) (tx : Transaction β) : Except OutboxError (List β) × OutboxStore :=
  match s.strike .commit with
  | (true, s) => (.error OutboxCall.commit.fault, s.rollback tx)
  | (false, s) => s.commit tx

end OutboxStore

end Workboard
