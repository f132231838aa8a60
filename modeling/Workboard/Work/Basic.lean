import Workboard.Work.Scope

/-!
Pieces of business as trees of the steps they take. A step may answer, and what comes next depends on the
answer.
-/

namespace Workboard

/-- Work that keeps notes of type `σ`, registers hooks of type `η`, and ends with an `α` or an `ε`. Notes
stay whatever becomes of the transaction. -/
inductive Work (σ η ε α : Type) where
  | done (ending : Ending ε α)
  | look (next : σ → Work σ η ε α)
  | note (notes : σ) (next : Work σ η ε α)
  | freshId (next : Uuid → Work σ η ε α)
  | find (id : TodoId) (next : Option Todo → Work σ η ε α)
  | collect (mapper : EventMapper) (todo : TrackedTodo) (next : TrackedTodo → Work σ η ε α)
  | stage (write : StagedWrite) (next : Work σ η ε α)
  | append (records : List NewRecord) (next : Except OutboxError Unit → Work σ η ε α)
  | fetch (limit : Nat) (next : Except OutboxError (List OutboxRecord) → Work σ η ε α)
  | markProcessed (id : Uuid) (next : Except OutboxError Unit → Work σ η ε α)
  | markFailed (id : Uuid) (error : String) (next : Except OutboxError Unit → Work σ η ε α)
  | afterCommit (hook : η) (next : Work σ η ε α)
  | counts (next : Nat → Nat → Work σ η ε α)
  | cancel (next : Work σ η ε α)
  | sleep (ms : Nat) (next : Work σ η ε α)

namespace Work

variable {σ η ε α β : Type}

/-- Goes on with the value of some work, if it returns one. -/
def bind : Work σ η ε α → (α → Work σ η ε β) → Work σ η ε β
  | .done (.returned a), f => f a
  | .done (.failed e), _ => .done (.failed e)
  | .done (.panicked m), _ => .done (.panicked m)
  | .look next, f => .look fun s => (next s).bind f
  | .note s next, f => .note s (next.bind f)
  | .freshId next, f => .freshId fun id => (next id).bind f
  | .find id next, f => .find id fun t => (next t).bind f
  | .collect mapper t next, f => .collect mapper t fun t => (next t).bind f
  | .stage w next, f => .stage w (next.bind f)
  | .append rs next, f => .append rs fun r => (next r).bind f
  | .fetch limit next, f => .fetch limit fun r => (next r).bind f
  | .markProcessed id next, f => .markProcessed id fun r => (next r).bind f
  | .markFailed id error next, f => .markFailed id error fun r => (next r).bind f
  | .afterCommit h next, f => .afterCommit h (next.bind f)
  | .counts next, f => .counts fun c a => (next c a).bind f
  | .cancel next, f => .cancel (next.bind f)
  | .sleep ms next, f => .sleep ms (next.bind f)

/-- Work within the same transaction, whose error becomes an answer. -/
def attempt : Work σ η ε α → Work σ η ε (Except ε α)
  | .done (.returned a) => .done (.returned (.ok a))
  | .done (.failed e) => .done (.returned (.error e))
  | .done (.panicked m) => .done (.panicked m)
  | .look next => .look fun s => (next s).attempt
  | .note s next => .note s next.attempt
  | .freshId next => .freshId fun id => (next id).attempt
  | .find id next => .find id fun t => (next t).attempt
  | .collect mapper t next => .collect mapper t fun t => (next t).attempt
  | .stage w next => .stage w next.attempt
  | .append rs next => .append rs fun r => (next r).attempt
  | .fetch limit next => .fetch limit fun r => (next r).attempt
  | .markProcessed id next => .markProcessed id fun r => (next r).attempt
  | .markFailed id error next => .markFailed id error fun r => (next r).attempt
  | .afterCommit h next => .afterCommit h next.attempt
  | .counts next => .counts fun c a => (next c a).attempt
  | .cancel next => .cancel next.attempt
  | .sleep ms next => .sleep ms next.attempt

def give (a : α) : Work σ η ε α := .done (.returned a)

def fail (e : ε) : Work σ η ε α := .done (.failed e)

def panic (message : String) : Work σ η ε α := .done (.panicked message)

instance : Monad (Work σ η ε) where
  pure := give
  bind := bind

def ofExcept : Except ε α → Work σ η ε α
  | .ok a => give a
  | .error e => fail e

/-- Collects the events of a to-do and stages its row. -/
def save (mapper : EventMapper) (t : TrackedTodo) : Work σ η ε TrackedTodo :=
  .collect mapper t fun t => .stage (.row (.put t.todo)) (give t)

/-- Collects the events of a to-do and stages the removal of its row. -/
def delete (mapper : EventMapper) (t : TrackedTodo) : Work σ η ε TrackedTodo :=
  .collect mapper t fun t => .stage (.row (.remove t.todo.id)) (give t)

end Work

end Workboard
