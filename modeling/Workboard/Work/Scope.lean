import Workboard.Uuid
import Workboard.Outbox.Store
import Workboard.Todo.Repository
import Workboard.Service.Error

/-!
What a piece of business gathers inside its transaction: rows to write, events of the to-dos it changed,
and hooks to run once the transaction is committed.
-/

namespace Workboard

/-- A write that takes effect when its transaction commits. -/
inductive StagedWrite where
  | row (write : RowWrite)
  | label (text : String)

/-- The events of one to-do, taken from it and not yet written to the outbox. -/
structure Collected where
  aggregateType : String
  aggregateId : Uuid
  events : List TodoEvent
  mapper : EventMapper

/-- `η` is the kind of the hooks. -/
structure Scope (η : Type) where
  tx : Transaction StagedWrite
  collected : List Collected
  hooks : List η

namespace Collected

/-- The rows for some events, each with an identifier of its own. The first event that the mapper refuses
ends it. -/
def records (kind : String) (aggregate : Uuid) (mapper : EventMapper) (now : Instant) :
    List TodoEvent → IdSupply → Except MappingError (List NewRecord × IdSupply)
  | [], ids => .ok ([], ids)
  | e :: es, ids =>
    match mapper e with
    | .error err => .error err
    | .ok none => records kind aggregate mapper now es ids
    | .ok (some m) =>
      let (id, ids) := ids.fresh
      match records kind aggregate mapper now es ids with
      | .error err => .error err
      | .ok (rows, ids) =>
        .ok (⟨id, m.eventType, kind, aggregate, m.payload, m.headers, now⟩ :: rows, ids)

/-- The rows for everything that was collected, in the order of collection. -/
def flush (now : Instant) :
    List Collected → IdSupply → Except MappingError (List NewRecord × IdSupply)
  | [], ids => .ok ([], ids)
  | c :: cs, ids =>
    match records c.aggregateType c.aggregateId c.mapper now c.events ids with
    | .error err => .error err
    | .ok (rows, ids) =>
      match flush now cs ids with
      | .error err => .error err
      | .ok (more, ids) => .ok (rows ++ more, ids)

end Collected

namespace Scope

variable {η : Type}

def empty : Scope η := ⟨.empty, [], []⟩

/-- Takes the pending events of a to-do. They are gone from it even if the transaction fails later. -/
def collect (s : Scope η) (mapper : EventMapper) (t : TrackedTodo) : TrackedTodo × Scope η :=
  let (events, rest) := t.takeEvents
  if events.isEmpty then (t, s)
  else
    (rest,
      { s with collected := s.collected ++ [⟨TrackedTodo.kind, t.todo.id.uuid, events, mapper⟩] })

def stage (s : Scope η) (write : StagedWrite) : Scope η := { s with tx := s.tx.stage write }

def afterCommit (s : Scope η) (hook : η) : Scope η := { s with hooks := s.hooks ++ [hook] }

def collectedCount (s : Scope η) : Nat := (s.collected.flatMap fun c => c.events).length

end Scope

end Workboard
