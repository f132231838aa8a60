/-!
Joining requests for one key. The first caller leads and fetches; those who come while it is under way
follow it and share what it fetched. If it ends without a value, each follower fetches for itself.
-/

namespace Workboard

/-- Flights have numbers. A flight that is open takes followers; one that has landed left a value for
them, or nothing. -/
structure SingleFlight (α : Type) where
  next : Nat
  opened : List (String × Nat)
  landed : List (Nat × Option α)

inductive FlightRole where
  | leader (flight : Nat)
  | follower (flight : Nat)
  deriving DecidableEq

/-- Where a caller stands. Without a flight it fetches for itself alone. -/
inductive FlightPhase (ε α : Type) where
  | enter
  | follow (flight : Nat)
  | start (flight : Option Nat)
  | fetching (flight : Option Nat)
  | leave (flight : Nat) (result : Except ε α)
  | announce (flight : Nat) (result : Except ε α)
  | done (result : Except ε α)

namespace SingleFlight

variable {ε α : Type}

def empty : SingleFlight α := ⟨0, [], []⟩

def inflight (f : SingleFlight α) : Nat := f.opened.length

def flightOf? (f : SingleFlight α) (key : String) : Option Nat :=
  (f.opened.find? fun e => e.1 = key).map (·.2)

/-- Follows the open flight of a key, or opens one. -/
def enter (f : SingleFlight α) (key : String) : FlightRole × SingleFlight α :=
  match f.flightOf? key with
  | some n => (.follower n, f)
  | none => (.leader f.next, { f with next := f.next + 1, opened := f.opened ++ [(key, f.next)] })

def leave (f : SingleFlight α) (key : String) : SingleFlight α :=
  { f with opened := f.opened.filter fun e => e.1 ≠ key }

/-- Tells the followers of a flight what came of it. -/
def announce (f : SingleFlight α) (flight : Nat) (value : Option α) : SingleFlight α :=
  { f with landed := f.landed ++ [(flight, value)] }

/-- What came of a flight, once it is told. -/
def outcome? (f : SingleFlight α) (flight : Nat) : Option (Option α) :=
  (f.landed.find? fun e => e.1 = flight).map (·.2)

/-- One step of a caller, unless it has to wait: for its flight, or for what it fetches. It follows with
a value only if the value is of the type that it accepts. -/
def step (f : SingleFlight α) (key : String) (accepts : α → Bool) :
    FlightPhase ε α → Option (SingleFlight α × FlightPhase ε α)
  | .enter =>
    match f.enter key with
    | (.leader n, f) => some (f, .start (some n))
    | (.follower n, f) => some (f, .follow n)
  | .follow n =>
    match f.outcome? n with
    | none => none
    | some (some a) => some (f, if accepts a then .done (.ok a) else .start none)
    | some none => some (f, .start none)
  | .start flight => some (f, .fetching flight)
  | .fetching _ => none
  | .leave n result => some (f.leave key, .announce n result)
  | .announce n result => some (f.announce n result.toOption, .done result)
  | .done _ => none

/-- A caller that is given up leaves its flight, and its followers get nothing. -/
def abandon (f : SingleFlight α) (key : String) : FlightPhase ε α → SingleFlight α
  | .start (some n) | .fetching (some n) | .leave n _ => (f.leave key).announce n none
  | .announce n _ => f.announce n none
  | _ => f

end SingleFlight

def FlightPhase.fetched {ε α : Type} (flight : Option Nat) (result : Except ε α) :
    FlightPhase ε α :=
  match flight with
  | some n => .leave n result
  | none => .done result

end Workboard
