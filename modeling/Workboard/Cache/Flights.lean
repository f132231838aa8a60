import Workboard.Cache.SingleFlight

/-!
Many callers around one single flight. Each takes its steps one at a time, and steps of the others may come
between them.
-/

namespace Workboard

/-- What a caller asks for, and which shared values are of its type. -/
structure FlightCaller (α : Type) where
  key : String
  accepts : α → Bool

inductive FlightEvent (ε α : Type) where
  /-- A caller takes a step, unless it has to wait. -/
  | step (caller : Nat)
  /-- What a caller fetches is there. -/
  | answer (caller : Nat) (result : Except ε α)
  /-- A caller is given up, or panics. -/
  | abandon (caller : Nat)

structure FlightWorld (ε α : Type) where
  flights : SingleFlight α
  /-- Where each caller stands, unless it is gone. -/
  phases : Nat → Option (FlightPhase ε α)
  /-- Who began to fetch, one after another. -/
  fetches : List Nat
  /-- What came of the fetch of each caller. -/
  answers : List (Nat × Except ε α)

variable {ε α : Type}

def FlightEvent.caller : FlightEvent ε α → Nat
  | .step i | .answer i _ | .abandon i => i

namespace FlightPhase

/-- The flight that a caller leads, from when it opens it until it takes it off. -/
def leads? : FlightPhase ε α → Option Nat
  | .start flight | .fetching flight => flight
  | .leave flight _ => some flight
  | _ => none

/-- The flight that a caller has yet to tell its followers of. -/
def carries? : FlightPhase ε α → Option Nat
  | .announce flight _ => some flight
  | phase => phase.leads?

/-- The flight that a caller has in mind. -/
def flight? : FlightPhase ε α → Option Nat
  | .follow n => some n
  | phase => phase.carries?

def isDone : FlightPhase ε α → Bool
  | .done _ => true
  | _ => false

/-- The same with other numbers for flights. -/
def rename (number : Nat → Nat) : FlightPhase ε α → FlightPhase ε α
  | .enter => .enter
  | .follow flight => .follow (number flight)
  | .start flight => .start (flight.map number)
  | .fetching flight => .fetching (flight.map number)
  | .leave flight result => .leave (number flight) result
  | .announce flight result => .announce (number flight) result
  | .done result => .done result

end FlightPhase

namespace FlightWorld

/-- No one has come yet. -/
def begin : FlightWorld ε α := ⟨.empty, fun _ => some .enter, [], []⟩

def move (w : FlightWorld ε α) (caller : Nat) (phase : Option (FlightPhase ε α)) : FlightWorld ε α :=
  { w with phases := fun i => if i = caller then phase else w.phases i }

variable (who : Nat → FlightCaller α)

def after (w : FlightWorld ε α) : FlightEvent ε α → FlightWorld ε α
  | .step i =>
    match w.phases i with
    | none => w
    | some phase =>
      match w.flights.step (who i).key (who i).accepts phase with
      | none => w
      | some (flights, next) =>
        let fetches := match phase with
          | .start _ => w.fetches ++ [i]
          | _ => w.fetches
        { w.move i (some next) with flights := flights, fetches := fetches }
  | .answer i result =>
    match w.phases i with
    | some (.fetching flight) =>
      { w.move i (some (.fetched flight result)) with answers := w.answers ++ [(i, result)] }
    | _ => w
  | .abandon i =>
    match w.phases i with
    | none => w
    | some phase =>
      if phase.isDone then w
      else { w.move i none with flights := w.flights.abandon (who i).key phase }

def run (w : FlightWorld ε α) (events : List (FlightEvent ε α)) : FlightWorld ε α :=
  events.foldl (after who) w

def leads? (w : FlightWorld ε α) (caller : Nat) : Option Nat :=
  (w.phases caller).bind FlightPhase.leads?

def carries? (w : FlightWorld ε α) (caller : Nat) : Option Nat :=
  (w.phases caller).bind FlightPhase.carries?

/-- A caller that is there leads the flight of a key. -/
def Leads (w : FlightWorld ε α) (key : String) (caller : Nat) : Prop :=
  (who caller).key = key ∧ (w.leads? caller).isSome

/-- What a caller that has ended leaves to those who followed it. -/
def leaves? (w : FlightWorld ε α) (caller : Nat) : Option (Option α) :=
  match w.phases caller with
  | none => some none
  | some (.done result) => some result.toOption
  | some _ => none

end FlightWorld

end Workboard
