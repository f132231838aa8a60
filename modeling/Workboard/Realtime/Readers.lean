import Workboard.Realtime.Queue

/-!
Readers that wait for a queue. Each change of the queue wakes one reader; if none waits, one wake-up is
kept for the next that comes to wait.
-/

namespace Workboard

/-- Where a reader stands in a call. It gets ready to wait, looks at the queue and begins to wait in separate
steps. -/
inductive ReaderPhase (α : Type) where
  /-- It has nothing to wait on yet. -/
  | entering
  | looking
  /-- It has found nothing. -/
  | waiting
  | parked
  | done (r : NextMessage α)
  deriving DecidableEq

/-- A queue, the wake-up that is kept, and the readers that are parked, in the order in which they came. -/
structure AwaitedQueue (α ρ : Type) where
  queue : OutboundQueue α
  permit : Bool
  parked : List ρ

namespace AwaitedQueue

variable {α ρ : Type}

def ofCapacity (capacity : Nat) : AwaitedQueue α ρ := ⟨.ofCapacity capacity, false, []⟩

/-- Wakes the reader that has waited longest, or keeps the wake-up. -/
def notify (s : AwaitedQueue α ρ) : Option ρ × AwaitedQueue α ρ :=
  match s.parked with
  | [] => (none, { s with permit := true })
  | r :: rest => (some r, { s with parked := rest })

/-- Changes the queue; the wake-up is given in a step of its own. -/
def push (s : AwaitedQueue α ρ) (m : α) : PushOutcome × AwaitedQueue α ρ :=
  let (r, q) := s.queue.push m
  (r, { s with queue := q })

def wakes : PushOutcome → Bool
  | .closed => false
  | _ => true

def close (s : AwaitedQueue α ρ) : AwaitedQueue α ρ := { s with queue := s.queue.close }

/-- One step of a reader. A reader that is parked takes none until it is woken; then it is no longer among those
who are parked, and looks again. -/
def step [DecidableEq ρ] (s : AwaitedQueue α ρ) (reader : ρ) :
    ReaderPhase α → ReaderPhase α × AwaitedQueue α ρ
  | .entering => (.looking, s)
  | .looking =>
    match s.queue.next with
    | (.pending, q) => (.waiting, { s with queue := q })
    | (r, q) => (.done r, { s with queue := q })
  | .waiting =>
    if s.permit then (.entering, { s with permit := false })
    else (.parked, { s with parked := s.parked ++ [reader] })
  | .parked => if reader ∈ s.parked then (.parked, s) else (.entering, s)
  | .done r => (.done r, s)

/-- A call is given up. A reader that was woken hands its wake-up on. -/
def giveUp [DecidableEq ρ] (s : AwaitedQueue α ρ) (reader : ρ) : ReaderPhase α → AwaitedQueue α ρ
  | .parked => if reader ∈ s.parked then { s with parked := s.parked.erase reader } else s.notify.2
  | _ => s

def advance [DecidableEq ρ] (s : AwaitedQueue α ρ) (reader : ρ) :
    Nat → ReaderPhase α → ReaderPhase α × AwaitedQueue α ρ
  | 0, phase => (phase, s)
  | n + 1, phase =>
    let (phase, s) := s.step reader phase
    advance s reader n phase

/-- A call goes on until the reader is parked or done; it looks at most twice, since only one wake-up is kept. -/
def call [DecidableEq ρ] (s : AwaitedQueue α ρ) (reader : ρ) : ReaderPhase α × AwaitedQueue α ρ :=
  s.advance reader 6 .entering

end AwaitedQueue

/-- A queue with named readers. The readers that can go on do so in order. A reader without a name never stays. -/
structure ReadingRoom (α : Type) where
  awaited : AwaitedQueue α (Option String)
  runnable : List String
  done : List (String × NextMessage α)

namespace ReadingRoom

variable {α : Type}

def wake (s : ReadingRoom α) : ReadingRoom α :=
  match s.awaited.notify with
  | (some (some r), a) => { s with awaited := a, runnable := s.runnable ++ [r] }
  | (_, a) => { s with awaited := a }

def push (s : ReadingRoom α) (m : α) : PushOutcome × ReadingRoom α :=
  let (r, a) := s.awaited.push m
  let s := { s with awaited := a }
  (r, if AwaitedQueue.wakes r then s.wake else s)

def close (s : ReadingRoom α) : ReadingRoom α := wake { s with awaited := s.awaited.close }

/-- A call that is given up if it has to wait. -/
def nextNow (s : ReadingRoom α) : NextMessage α × ReadingRoom α :=
  match s.awaited.call none with
  | (.done m, a) => (m, { s with awaited := a })
  | (phase, a) => (.pending, { s with awaited := a.giveUp none phase })

/-- Each reader that can go on does so until it is parked or done. -/
def settle (s : ReadingRoom α) : ReadingRoom α :=
  s.runnable.foldl (fun s r =>
    match s.awaited.call (some r) with
    | (.done m, a) => { s with awaited := a, done := s.done ++ [(r, m)] }
    | (_, a) => { s with awaited := a }) { s with runnable := [] }

end ReadingRoom

end Workboard
