import Workboard.Todo.Basic

/-!
The life of a to-do from its creation on: changes one after another, and every event that they record, those
included that have been taken since or that a journal was lost with.
-/

namespace Workboard

/-- What is done with a to-do. A round trip writes it as JSON and goes on with what is read. -/
inductive TodoAct where
  | rename (title : String) (now : Instant)
  | complete (now : Instant)
  | reopen (now : Instant)
  | markDeleted (now : Instant)
  | takeEvents
  | roundTrip

namespace TrackedTodo

/-- Renames in place, where what has been written would stay if a later step failed. -/
def renameInPlace (title : String) (now : Instant) : ExceptT DomainError (StateM TrackedTodo) Unit := do
  let title ← ExceptT.mk (pure (validateTitle title))
  if title = (← get).todo.title then return
  modify fun t => { t with todo.title := title }
  modify fun t => { t with todo.updatedAt := now }
  modify fun t => { t with journal := t.journal.record ⟨t.todo.id, t.todo.workspaceId, .renamed title, now⟩ }

end TrackedTodo

structure TodoLife where
  tracked : TrackedTodo
  recorded : List TodoEvent

namespace TodoLife

/-- What is pending at creation has just been recorded. -/
def ofNew (t : TrackedTodo) : TodoLife := ⟨t, t.pending⟩

/-- The to-do after a change, which has recorded what now stands behind the events that were pending. -/
def changed (l : TodoLife) (t : TrackedTodo) : TodoLife :=
  ⟨t, l.recorded ++ t.pending.drop l.tracked.pending.length⟩

/-- Journals are not written, so a to-do that was read has nothing pending. -/
def act (l : TodoLife) : TodoAct → Option TodoLife
  | .rename title now => some (l.changed ((TrackedTodo.renameInPlace title now).run l.tracked).2)
  | .complete now => some (l.changed (l.tracked.complete now))
  | .reopen now => some (l.changed (l.tracked.reopen now))
  | .markDeleted now => some (l.changed (l.tracked.markDeleted now))
  | .takeEvents => some { l with tracked := l.tracked.takeEvents.2 }
  | .roundTrip => (Todo.ofBytes? l.tracked.todo.toBytes).map fun todo => { l with tracked := .restore todo }

def after (l : TodoLife) (acts : List TodoAct) : Option TodoLife := acts.foldlM act l

end TodoLife

end Workboard
