import Workboard.Work.Basic

/-!
Carrying out a piece of work in one transaction. Either everything it wrote is committed together with
the events it collected and its hooks are due, or nothing is left of it but its notes.
-/

namespace Workboard

/-- The stored state that transactions work on. -/
structure Database where
  outbox : OutboxStore
  repository : Repository
  ids : IdSupply
  now : Instant

/-- A request to stop: made already, or due at a time. -/
structure CancelToken where
  cancelled : Bool
  due : Option Nat
  deriving DecidableEq

namespace CancelToken

def never : CancelToken := ⟨false, none⟩

/-- When a wait that begins at `now` is broken off. A token that falls due just as the wait ends is too
late. -/
def breakOff? (t : CancelToken) (now ms : Nat) : Option Nat :=
  if t.cancelled then some now
  else
    match t.due with
    | some due => if due < now + ms then some (max now due) else none
    | none => none

end CancelToken

/-- Everything that work under way can change. -/
structure Progress (σ η : Type) where
  db : Database
  scope : Scope η
  token : CancelToken
  /-- Whether steps of the work reach the token. -/
  watched : Bool
  clock : Nat
  notes : σ

inductive Outcome (ε α : Type) where
  | ended (ending : Ending ε α)
  | cancelled

/-- How the execution of some work ended, with the hooks that are due. -/
structure Executed (σ η ε α : Type) where
  ending : Ending ε α
  db : Database
  /-- The staged writes that were carried out. -/
  writes : List StagedWrite
  hooks : List η
  clock : Nat
  notes : σ

/-- How a hook ends. -/
inductive HookEnd where
  | ok
  | error
  | panic

/-- Runs hooks one after another. One that fails or panics does not keep the next one from running. -/
def runHooks {η ω : Type} (perform : η → ω → HookEnd × ω) : List η → ω → ω
  | [], w => w
  | hook :: hooks, w =>
    match perform hook w with
    | (.ok, w) => runHooks perform hooks w
    | (.error, w) => runHooks perform hooks w
    | (.panic, w) => runHooks perform hooks w

namespace Database

def applyWrite (db : Database) : StagedWrite → Database
  | .row write => { db with repository := db.repository.apply write }
  | .label _ => db

def rollback (db : Database) (tx : Transaction StagedWrite) : Database :=
  { db with outbox := (db.outbox.strike .rollback).2.rollback tx }

/-- Adds the rows of the collected events. Without rows the outbox is not called. -/
def appendAll (db : Database) (tx : Transaction StagedWrite) (records : List NewRecord) :
    Except OutboxError (Transaction StagedWrite) × Database :=
  if records.isEmpty then (.ok tx, db)
  else
    match db.outbox.tryAppend tx records with
    | (r, outbox) => (r, { db with outbox := outbox })

/-- Ends a transaction and carries out its writes if the commit succeeds. -/
def commit (db : Database) (tx : Transaction StagedWrite) :
    Except OutboxError (List StagedWrite) × Database :=
  match db.outbox.tryCommit tx with
  | (.error e, outbox) => (.error e, { db with outbox := outbox })
  | (.ok writes, outbox) => (.ok writes, writes.foldl applyWrite { db with outbox := outbox })

end Database

/-- Keeps a transaction that a call changed, or the old one and the error. -/
def Progress.keep {σ η : Type} (p : Progress σ η)
    (r : Except OutboxError (Transaction StagedWrite) × OutboxStore) :
    Except OutboxError Unit × Progress σ η :=
  let db := { p.db with outbox := r.2 }
  match r.1 with
  | .ok tx => (.ok (), { p with db := db, scope := { p.scope with tx := tx } })
  | .error e => (.error e, { p with db := db })

namespace Work

variable {σ η ε α : Type}

/-- Runs the steps of some work inside its transaction. -/
def run : Work σ η ε α → Progress σ η → Outcome ε α × Progress σ η
  | .done ending, p => (.ended ending, p)
  | .look next, p => (next p.notes).run p
  | .note notes next, p => next.run { p with notes := notes }
  | .freshId next, p =>
    let (id, ids) := p.db.ids.fresh
    (next id).run { p with db := { p.db with ids := ids } }
  | .find id next, p => (next (p.db.repository.find? id)).run p
  | .collect mapper t next, p =>
    let (t, scope) := p.scope.collect mapper t
    (next t).run { p with scope := scope }
  | .stage write next, p => next.run { p with scope := p.scope.stage write }
  | .append records next, p =>
    let (r, p) := p.keep (p.db.outbox.tryAppend p.scope.tx records)
    (next r).run p
  | .fetch limit next, p =>
    let (r, outbox, tx) := p.db.outbox.tryFetch p.scope.tx limit
    (next r).run
      { p with db := { p.db with outbox := outbox }, scope := { p.scope with tx := tx } }
  | .markProcessed id next, p =>
    let (r, p) := p.keep (p.db.outbox.tryMark p.scope.tx (.processed id p.db.now))
    (next r).run p
  | .markFailed id error next, p =>
    let (r, p) := p.keep (p.db.outbox.tryMark p.scope.tx (.failed id error))
    (next r).run p
  | .afterCommit hook next, p => next.run { p with scope := p.scope.afterCommit hook }
  | .counts next, p => (next p.scope.collectedCount p.scope.tx.appended.length).run p
  | .cancel next, p =>
    next.run (if p.watched then { p with token := { p.token with cancelled := true } } else p)
  | .sleep ms next, p =>
    match p.token.breakOff? p.clock ms with
    | some t => (.cancelled, { p with clock := t, token := { p.token with cancelled := true } })
    | none => next.run { p with clock := p.clock + ms }

/-- Writes what was collected and commits, or rolls back with the first error. -/
def conclude (lift : UnitOfWorkError → ε) (value : α) (p : Progress σ η) : Executed σ η ε α :=
  let undone (e : UnitOfWorkError) (db : Database) : Executed σ η ε α :=
    ⟨.failed (lift e), db, [], [], p.clock, p.notes⟩
  match Collected.flush p.db.now p.scope.collected p.db.ids with
  | .error e => undone (.mapping e) (p.db.rollback p.scope.tx)
  | .ok (records, ids) =>
    let db := { p.db with ids := ids }
    match db.appendAll p.scope.tx records with
    | (.error e, db) => undone (.outbox e) (db.rollback p.scope.tx)
    | (.ok tx, db) =>
      if p.token.cancelled then undone .cancelled (db.rollback tx)
      else
        match db.commit tx with
        | (.error e, db) => undone (.outbox e) db
        | (.ok writes, db) => ⟨.returned value, db, writes, p.scope.hooks, p.clock, p.notes⟩

/-- What follows once some work has ended: its transaction is concluded or given up. -/
def finish (lift : UnitOfWorkError → ε) : Outcome ε α → Progress σ η → Executed σ η ε α
  | .cancelled, p =>
    ⟨.failed (lift .cancelled), p.db.rollback p.scope.tx, [], [], p.clock, p.notes⟩
  | .ended (.returned value), p => conclude lift value p
  | .ended (.failed e), p => ⟨.failed e, p.db.rollback p.scope.tx, [], [], p.clock, p.notes⟩
  | .ended (.panicked m), p => ⟨.panicked m, p.db.rollback p.scope.tx, [], [], p.clock, p.notes⟩

/-- Executes some work in a new transaction. A token that is cancelled before the commit rolls back. -/
def execute (work : Work σ η ε α) (lift : UnitOfWorkError → ε) (db : Database)
    (token : CancelToken) (watched : Bool) (clock : Nat) (notes : σ) : Executed σ η ε α :=
  let undone (ending : Ending ε α) (db : Database) : Executed σ η ε α :=
    ⟨ending, db, [], [], clock, notes⟩
  if token.cancelled then undone (.failed (lift .cancelled)) db
  else
    match db.outbox.strike .beginPanic with
    | (true, outbox) => undone (.panicked "begin panicked") { db with outbox := outbox }
    | (false, outbox) =>
      match outbox.strike .begin with
      | (true, outbox) =>
        undone (.failed (lift (.outbox OutboxCall.begin.fault))) { db with outbox := outbox }
      | (false, outbox) =>
        let (outcome, p) :=
          work.run ⟨{ db with outbox := outbox }, .empty, token, watched, clock, notes⟩
        finish lift outcome p

end Work

end Workboard
