import Workboard.Todo.Basic
import Workboard.Work.Execute

/-!
Executions of work that go on side by side. Each takes its steps one at a time, and steps of the others may come
between them; what one finds in the repository is what is stored when its step comes.
-/

namespace Workboard

variable {σ η ε α : Type}

/-- The next step of some work: what is left of it, or the outcome if that was its end. -/
def Work.step : Work σ η ε α → Progress σ η → (Outcome ε α ⊕ Work σ η ε α) × Progress σ η
  | .done ending, p => (.inl (.ended ending), p)
  | .look next, p => (.inr (next p.notes), p)
  | .note notes next, p => (.inr next, { p with notes := notes })
  | .freshId next, p =>
    let (id, ids) := p.db.ids.fresh
    (.inr (next id), { p with db := { p.db with ids := ids } })
  | .find id next, p => (.inr (next (p.db.repository.find? id)), p)
  | .collect mapper t next, p =>
    let (t, scope) := p.scope.collect mapper t
    (.inr (next t), { p with scope := scope })
  | .stage write next, p => (.inr next, { p with scope := p.scope.stage write })
  | .append records next, p =>
    let (r, p) := p.keep (p.db.outbox.tryAppend p.scope.tx records)
    (.inr (next r), p)
  | .fetch limit next, p =>
    let (r, outbox, tx) := p.db.outbox.tryFetch p.scope.tx limit
    (.inr (next r), { p with db := { p.db with outbox := outbox }, scope := { p.scope with tx := tx } })
  | .markProcessed id next, p =>
    let (r, p) := p.keep (p.db.outbox.tryMark p.scope.tx (.processed id p.db.now))
    (.inr (next r), p)
  | .markFailed id error next, p =>
    let (r, p) := p.keep (p.db.outbox.tryMark p.scope.tx (.failed id error))
    (.inr (next r), p)
  | .afterCommit hook next, p => (.inr next, { p with scope := p.scope.afterCommit hook })
  | .counts next, p => (.inr (next p.scope.collectedCount p.scope.tx.appended.length), p)
  | .cancel next, p =>
    (.inr next, if p.watched then { p with token := { p.token with cancelled := true } } else p)
  | .sleep ms next, p =>
    match p.token.breakOff? p.clock ms with
    | some t => (.inl .cancelled, { p with clock := t, token := { p.token with cancelled := true } })
    | none => (.inr next, { p with clock := p.clock + ms })

/-- Where an execution is, with the time that it has slept. -/
inductive WorkPhase (σ η ε α : Type) where
  /-- Its transaction has not begun. -/
  | waiting (work : Work σ η ε α)
  | working (work : Work σ η ε α) (scope : Scope η) (clock : Nat)
  | ended (ending : Ending ε α) (hooks : List η) (clock : Nat)

inductive WorkEvent where
  /-- An execution takes its next step. -/
  | step (execution : Nat)
  /-- An execution is given up where it is. -/
  | abandon (execution : Nat)
  | failCommits (on : Bool)

/-- Executions over one stored state, with notes that they share. -/
structure WorkWorld (σ η ε α : Type) where
  db : Database
  notes : σ
  executions : List (WorkPhase σ η ε α)

def Ending.isReturned : Ending ε α → Bool
  | .returned _ => true
  | _ => false

def WorkPhase.hasReturned : WorkPhase σ η ε α → Bool
  | .ended ending _ _ => ending.isReturned
  | _ => false

/-- What is seen of executions at the row of one to-do. -/
inductive Access where
  | looked (execution : Nat)
  /-- A change of the row or an event of the to-do was committed. -/
  | wrote (execution : Nat)
  deriving DecidableEq

namespace StagedWrite

def target? : StagedWrite → Option TodoId
  | .row (.put t) => some t.id
  | .row (.remove id) => some id
  | .label _ => none

/-- The row of a to-do after a write. -/
def rowOf (id : TodoId) (row : Option Todo) : StagedWrite → Option Todo
  | .row (.put t) => if t.id = id then some t else row
  | .row (.remove other) => if other = id then none else row
  | .label _ => row

end StagedWrite

namespace Scope

/-- The events of a to-do that were collected. -/
def eventsOf (s : Scope η) (id : TodoId) : List TodoEvent :=
  (s.collected.filter fun c => c.aggregateId = id.uuid).flatMap (·.events)

/-- The row of a to-do after all that is staged. -/
def rowOf (s : Scope η) (id : TodoId) (row : Option Todo) : Option Todo :=
  s.tx.staged.foldl (StagedWrite.rowOf id) row

/-- Whether anything is staged or was collected for a to-do. -/
def touches (s : Scope η) (id : TodoId) : Bool :=
  s.tx.staged.any (fun w => w.target? = some id) || s.collected.any fun c => c.aggregateId = id.uuid

/-- The collected events of a to-do make of a row what is staged for it. -/
def Tells (s : Scope η) (id : TodoId) (row : Option Todo) : Prop :=
  TodoEvent.replayAll? (s.eventsOf id) row = some (s.rowOf id row)

end Scope

/-- Work that reads, changes and saves to-dos and has nothing else to do with the outbox. However its steps are
answered, a look with a row of the to-do it asks for, if it returns, its events are published as they are and tell
what it has staged for a to-do, for all rows that the to-do may have had when the work last looked. -/
def Work.Tells (id : TodoId) : Work σ η ε α → (Option Todo → Prop) → Scope η → Prop
  | .done (.returned _), seen, s => (∀ c ∈ s.collected, c.mapper = .standard) ∧ ∀ row, seen row → s.Tells id row
  | .done _, _, _ => True
  | .look next, seen, s => ∀ notes, (next notes).Tells id seen s
  | .note _ next, seen, s => next.Tells id seen s
  | .freshId next, seen, s => ∀ drawn, (next drawn).Tells id seen s
  | .find asked next, seen, s => ∀ row : Option Todo, (∀ t ∈ row, t.id = asked) →
    (next row).Tells id (if asked = id then (· = row) else seen) s
  | .collect mapper t next, seen, s => (next (s.collect mapper t).1).Tells id seen (s.collect mapper t).2
  | .stage write next, seen, s => next.Tells id seen (s.stage write)
  | .append _ _, _, _ => False
  | .fetch _ _, _, _ => False
  | .markProcessed _ _, _, _ => False
  | .markFailed _ _ _, _, _ => False
  | .afterCommit hook next, seen, s => next.Tells id seen (s.afterCommit hook)
  | .counts next, seen, s => (next s.collectedCount s.tx.appended.length).Tells id seen s
  | .cancel next, seen, s => next.Tells id seen s
  | .sleep _ next, seen, s => next.Tells id seen s

/-- Between the last look that an execution took and its own write, another has written. -/
def Overtaken (accesses : List Access) : Prop :=
  ∃ before n between after, accesses = before ++ .looked n :: (between ++ .wrote n :: after) ∧
    .looked n ∉ between ∧ ∃ m, m ≠ n ∧ .wrote m ∈ between

namespace WorkWorld

variable (lift : UnitOfWorkError → ε)

def progress (w : WorkWorld σ η ε α) (scope : Scope η) (clock : Nat) : Progress σ η :=
  ⟨w.db, scope, .never, false, clock, w.notes⟩

/-- The world when an execution has ended. -/
def ends (w : WorkWorld σ η ε α) (n : Nat) (x : Executed σ η ε α) : WorkWorld σ η ε α :=
  ⟨x.db, x.notes, w.executions.set n (.ended x.ending x.hooks x.clock)⟩

/-- An execution takes a step. With the first its transaction begins, and with the last it is concluded. -/
def act (w : WorkWorld σ η ε α) (n : Nat) : WorkPhase σ η ε α → WorkWorld σ η ε α
  | .waiting work =>
    let undone (ending : Ending ε α) (outbox : OutboxStore) : Executed σ η ε α :=
      ⟨ending, { w.db with outbox := outbox }, [], [], 0, w.notes⟩
    match w.db.outbox.strike .beginPanic with
    | (true, outbox) => w.ends n (undone (.panicked "begin panicked") outbox)
    | (false, outbox) =>
      match outbox.strike .begin with
      | (true, outbox) => w.ends n (undone (.failed (lift (.outbox OutboxCall.begin.fault))) outbox)
      | (false, outbox) =>
        { w with
          db := { w.db with outbox := outbox }
          executions := w.executions.set n (.working work .empty 0) }
  | .working work scope clock =>
    match work.step (w.progress scope clock) with
    | (.inr next, p) => ⟨p.db, p.notes, w.executions.set n (.working next p.scope p.clock)⟩
    | (.inl outcome, p) => w.ends n (Work.finish lift outcome p)
  | .ended _ _ _ => w

def after (w : WorkWorld σ η ε α) : WorkEvent → WorkWorld σ η ε α
  | .step n =>
    match w.executions[n]? with
    | some phase => w.act lift n phase
    | none => w
  | .abandon n =>
    match w.executions[n]? with
    | some (.working _ scope clock) => w.ends n (Work.finish lift .cancelled (w.progress scope clock))
    | some (.waiting _) => w.ends n ⟨.failed (lift .cancelled), w.db, [], [], 0, w.notes⟩
    | _ => w
  | .failCommits on => { w with db := { w.db with outbox := { w.db.outbox with failCommits := on } } }

def run (w : WorkWorld σ η ε α) (schedule : List WorkEvent) : WorkWorld σ η ε α :=
  schedule.foldl (after lift) w

/-- Whether an event is a look at a to-do, or the commit of a change of it. -/
def access? (id : TodoId) (w : WorkWorld σ η ε α) : WorkEvent → Option Access
  | .step n =>
    match w.executions[n]? with
    | some (.working (.find asked _) _ _) => if asked = id then some (.looked n) else none
    | some (.working (.done (.returned value)) scope clock) =>
      if (Work.conclude lift value (w.progress scope clock)).ending.isReturned && scope.touches id then
        some (.wrote n)
      else none
    | _ => none
  | _ => none

/-- The looks at a to-do and the commits of its changes, in their order. -/
def accesses (id : TodoId) (w : WorkWorld σ η ε α) : List WorkEvent → List Access
  | [] => []
  | e :: schedule => (w.access? lift id e).toList ++ (w.after lift e).accesses id schedule

end WorkWorld

end Workboard
