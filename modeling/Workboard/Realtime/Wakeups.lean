import Workboard.Realtime.Readers

/-!
Many writers and one reader around one queue. Each takes its steps one at a time, and steps of the others may come
between them: a writer changes the queue in one step and gives the wake-up in the next.
-/

namespace Workboard

/-- Where a call stands that pushes a message or closes the queue. -/
inductive WriterPhase (α : Type) where
  | pushing (m : α)
  | closing
  /-- The message was pushed, and the wake-up is yet to be given. -/
  | pushed (outcome : PushOutcome)
  /-- The queue is closed, and the wake-up is yet to be given. -/
  | closed (wasOpen : Bool)
  | returned (answer : Option PushOutcome)
  deriving DecidableEq

namespace WriterPhase

variable {α ρ : Type}

/-- The next step of a writer. A push that finds the queue closed wakes nobody. -/
def step (s : AwaitedQueue α ρ) : WriterPhase α → WriterPhase α × AwaitedQueue α ρ
  | .pushing m =>
    let (r, s) := s.push m
    (if AwaitedQueue.wakes r then .pushed r else .returned (some r), s)
  | .closing => (.closed (!s.queue.closed), s.close)
  | .pushed r => (.returned (some r), s.notify.2)
  | .closed _ => (.returned none, s.notify.2)
  | .returned answer => (.returned answer, s)

/-- It has changed the queue and has not returned. To close a queue that is closed changes nothing. -/
def isChanging : WriterPhase α → Bool
  | .pushed _ => true
  | .closed wasOpen => wasOpen
  | _ => false

end WriterPhase

structure QueueWorld (α : Type) where
  awaited : AwaitedQueue α Unit
  /-- In the order in which they came. -/
  writers : List (WriterPhase α)
  reader : ReaderPhase α

inductive QueueEvent (α : Type) where
  /-- Someone comes to push a message. -/
  | push (m : α)
  /-- Someone comes to close the queue. -/
  | close
  | write (writer : Nat)
  | read
  /-- The call of the reader is given up. -/
  | giveUp
  deriving DecidableEq

def QueueEvent.isRead {α : Type} : QueueEvent α → Bool
  | .read => true
  | _ => false

namespace QueueWorld

variable {α : Type}

def ofCapacity (capacity : Nat) : QueueWorld α := ⟨.ofCapacity capacity, [], .entering⟩

/-- One event. A reader whose call has returned calls again. -/
def after (w : QueueWorld α) : QueueEvent α → QueueWorld α
  | .push m => { w with writers := w.writers ++ [.pushing m] }
  | .close => { w with writers := w.writers ++ [.closing] }
  | .write writer =>
    match w.writers[writer]? with
    | none => w
    | some p =>
      let (p, a) := p.step w.awaited
      { w with writers := w.writers.set writer p, awaited := a }
  | .read =>
    match w.reader with
    | .done _ => { w with reader := .entering }
    | p =>
      let (p, a) := w.awaited.step () p
      { w with reader := p, awaited := a }
  | .giveUp => { w with reader := .entering, awaited := w.awaited.giveUp () w.reader }

def run (w : QueueWorld α) (events : List (QueueEvent α)) : QueueWorld α := events.foldl after w

/-- There is something for the reader to find. -/
def IsDue (w : QueueWorld α) : Prop := w.awaited.queue.closed = true ∨ w.awaited.queue.items ≠ []

/-- Someone has changed the queue and has not returned. -/
def IsChanging (w : QueueWorld α) : Prop := ∃ p ∈ w.writers, p.isChanging = true

/-- The reader is parked, and no wake-up was given to it. -/
def IsAsleep (w : QueueWorld α) : Prop := w.reader = .parked ∧ () ∈ w.awaited.parked

/-- In the course of some events the call of the reader returns what it has found. -/
def Returns (w : QueueWorld α) (events : List (QueueEvent α)) : Prop :=
  ∃ before, before <+: events ∧ ∃ r, r ≠ .pending ∧ (w.run before).reader = .done r

instance (w : QueueWorld α) : Decidable w.IsChanging :=
  inferInstanceAs (Decidable (∃ p ∈ w.writers, p.isChanging = true))

end QueueWorld

end Workboard
