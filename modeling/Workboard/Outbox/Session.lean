import Workboard.Outbox.Store

/-!
An outbox with the transactions that are open on it. Each transaction has a name, and its steps may come
between the steps of others; a history is steps of any number of transactions in the order in which they come.
-/

namespace Workboard

inductive TransactionStep where
  | append (records : List NewRecord)
  | stage (label : String)
  | fetch (limit : Nat)
  | markProcessed (id : Uuid)
  | markFailed (id : Uuid) (error : String)
  | appended
  | commit
  | rollback
  | drop

inductive SessionStep where
  | begin (name : String)
  | within (name : String) (step : TransactionStep)
  | failCommits (on : Bool)
  | records
  | pending
  | find (id : Uuid)
  | backlog

inductive SessionAnswer where
  | none
  | noTransaction
  | done (result : Except OutboxError Unit)
  | ids (ids : List Uuid)
  | count (n : Nat)
  | records (rows : List OutboxRecord)
  | pending (ids : List Uuid)
  | found (row : Option OutboxRecord)
  | backlog (b : Backlog)

/-- The store, its open transactions, and the labels whose staged effect has run. -/
structure OutboxSession where
  store : OutboxStore
  opened : List (String × Transaction String)
  staged : List String

namespace OutboxSession

def empty : OutboxSession := ⟨.empty, [], []⟩

def get? (s : OutboxSession) (name : String) : Option (Transaction String) :=
  (s.opened.find? fun e => e.1 = name).map (·.2)

def close (s : OutboxSession) (name : String) : OutboxSession :=
  { s with opened := s.opened.filter fun e => e.1 ≠ name }

def put (s : OutboxSession) (name : String) (tx : Transaction String) : OutboxSession :=
  { s with opened := (name, tx) :: (s.close name).opened }

/-- Gives up a transaction that holds the name, if there is one. -/
def drop (s : OutboxSession) (name : String) : OutboxSession :=
  match s.get? name with
  | some tx => { s.close name with store := s.store.rollback tx }
  | none => s

/-- Keeps a transaction that was changed, or the old one and the error. -/
def keep (s : OutboxSession) (name : String) (r : Except OutboxError (Transaction String)) :
    SessionAnswer × OutboxSession :=
  match r with
  | .ok tx => (.done (.ok ()), s.put name tx)
  | .error e => (.done (.error e), s)

def within (s : OutboxSession) (name : String) (tx : Transaction String) (now : Instant) :
    TransactionStep → SessionAnswer × OutboxSession
  | .append records => (.done (.ok ()), s.put name (tx.append records))
  | .stage label => (.none, s.put name (tx.stage label))
  | .fetch limit =>
    let (batch, store, tx) := s.store.fetchPending tx limit
    (.ids (batch.map (·.id)), { s with store := store }.put name tx)
  | .markProcessed id => s.keep name (s.store.mark tx (.processed id now))
  | .markFailed id error => s.keep name (s.store.mark tx (.failed id error))
  | .appended => (.count tx.appended.length, s)
  | .commit =>
    match s.store.commit tx with
    | (.ok staged, store) =>
      (.done (.ok ()), { s.close name with store := store, staged := s.staged ++ staged })
    | (.error e, store) => (.done (.error e), { s.close name with store := store })
  | .rollback => (.done (.ok ()), s.drop name)
  | .drop => (.none, s.drop name)

def step (s : OutboxSession) (now : Instant) : SessionStep → SessionAnswer × OutboxSession
  | .begin name => (.none, (s.drop name).put name .empty)
  | .within name step =>
    match s.get? name with
    | some tx => s.within name tx now step
    | none => (.noTransaction, s)
  | .failCommits on => (.none, { s with store := { s.store with failCommits := on } })
  | .records => (.records s.store.records, s)
  | .pending => (.pending (s.store.pending.map (·.id)), s)
  | .find id => (.found (s.store.find? id), s)
  | .backlog => (.backlog s.store.backlog, s)

end OutboxSession

/-- Whether the transaction that takes the step ends by it. -/
def TransactionStep.ends : TransactionStep → Bool
  | .commit | .rollback | .drop => true
  | _ => false

/-- Whether a transaction of this name ends by the step. A name that is used again is given up first. -/
def SessionStep.ends (name : String) : SessionStep → Bool
  | .begin other => other == name
  | .within other step => other == name && step.ends
  | _ => false

namespace OutboxSession

def run (s : OutboxSession) (history : List (Instant × SessionStep)) : OutboxSession :=
  history.foldl (fun s e => (s.step e.1 e.2).2) s

/-- The open transaction of a name has taken a row. -/
def Held (s : OutboxSession) (name : String) (id : Uuid) : Prop :=
  ∃ tx, s.get? name = some tx ∧ id ∈ tx.claimed

end OutboxSession

end Workboard
