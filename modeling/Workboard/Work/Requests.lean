import Workboard.Outbox.Ledger
import Workboard.Work.Execute

/-!
What a piece of work asks of its transaction while it runs, and the rows in which its events are to be
published.
-/

namespace Workboard

/-- What a mapper makes of an event, if it neither passes it over nor refuses it. -/
def EventMapper.mapped? (mapper : EventMapper) (event : TodoEvent) : Option MappedEvent :=
  match mapper event with
  | .ok mapped => mapped
  | .error _ => none

/-- A mapped event and the aggregate that it was collected from. -/
structure Publication where
  aggregateType : String
  aggregateId : Uuid
  event : MappedEvent

namespace Publication

def row (c : Publication) (id : Uuid) (now : Instant) : NewRecord :=
  ⟨id, c.event.eventType, c.aggregateType, c.aggregateId, c.event.payload, c.event.headers, now⟩

/-- The rows of publications, each under the next identifier of a supply. -/
def rows (ids : IdSupply) (now : Instant) (published : List Publication) : List NewRecord :=
  published.mapIdx fun i c => c.row (ids.nth (ids.used + i)) now

end Publication

def Collected.published (c : Collected) : List Publication :=
  (c.events.filterMap c.mapper.mapped?).map (⟨c.aggregateType, c.aggregateId, ·⟩)

/-- What work asks of its transaction. A call of the outbox counts if it was answered well. -/
inductive Request (η : Type) where
  | collect (mapper : EventMapper) (todo : TrackedTodo)
  | stage (write : StagedWrite)
  | call (made : RowCall)
  | afterCommit (hook : η)

namespace Request

variable {η : Type}

/-- The publications of the events that are pending where a to-do is collected. -/
def published : Request η → List Publication
  | .collect mapper todo =>
    (todo.pending.filterMap mapper.mapped?).map (⟨TrackedTodo.kind, todo.todo.id.uuid, ·⟩)
  | _ => []

def write? : Request η → Option StagedWrite
  | .stage write => some write
  | _ => none

def call? : Request η → Option RowCall
  | .call made => some made
  | _ => none

def hook? : Request η → Option η
  | .afterCommit hook => some hook
  | _ => none

/-- No pending event of a to-do that is collected is refused. -/
def Accepted : Request η → Prop
  | .collect mapper todo => ∀ e ∈ todo.pending, ∃ mapped, mapper e = .ok mapped
  | _ => True

/-- The request of a call, if the outbox answered it well. -/
def answered (made : RowCall) : Except OutboxError Unit → List (Request η)
  | .ok () => [.call made]
  | .error _ => []

end Request

namespace Work

variable {σ η ε α : Type}

/-- The requests of some work, in the order in which it makes them while it runs. -/
def requests : Work σ η ε α → Progress σ η → List (Request η)
  | .done _, _ => []
  | .look next, p => (next p.notes).requests p
  | .note notes next, p => next.requests { p with notes := notes }
  | .freshId next, p =>
    let (id, ids) := p.db.ids.fresh
    (next id).requests { p with db := { p.db with ids := ids } }
  | .find id next, p => (next (p.db.repository.find? id)).requests p
  | .collect mapper t next, p =>
    let (rest, scope) := p.scope.collect mapper t
    .collect mapper t :: (next rest).requests { p with scope := scope }
  | .stage write next, p => .stage write :: next.requests { p with scope := p.scope.stage write }
  | .append records next, p =>
    let (r, p) := p.keep (p.db.outbox.tryAppend p.scope.tx records)
    Request.answered (.append records) r ++ (next r).requests p
  | .fetch limit next, p =>
    let (r, outbox, tx) := p.db.outbox.tryFetch p.scope.tx limit
    (next r).requests
      { p with db := { p.db with outbox := outbox }, scope := { p.scope with tx := tx } }
  | .markProcessed id next, p =>
    let (r, q) := p.keep (p.db.outbox.tryMark p.scope.tx (.processed id p.db.now))
    Request.answered (.mark (.processed id p.db.now)) r ++ (next r).requests q
  | .markFailed id error next, p =>
    let (r, q) := p.keep (p.db.outbox.tryMark p.scope.tx (.failed id error))
    Request.answered (.mark (.failed id error)) r ++ (next r).requests q
  | .afterCommit hook next, p =>
    .afterCommit hook :: next.requests { p with scope := p.scope.afterCommit hook }
  | .counts next, p => (next p.scope.collectedCount p.scope.tx.appended.length).requests p
  | .cancel next, p =>
    next.requests (if p.watched then { p with token := { p.token with cancelled := true } } else p)
  | .sleep ms next, p =>
    match p.token.breakOff? p.clock ms with
    | some _ => []
    | none => next.requests { p with clock := p.clock + ms }

end Work

end Workboard
