import Workboard.Cache.Aside

/-!
Many tasks on one cache: reads, the fills they leave and invalidations. Each takes its steps one at a time,
and steps of the others may come between them.
-/

namespace Workboard

/-- A task and when it began: an invalidation itself; a read, or the fill that it left, with its fetch. -/
inductive CacheActor (ε α : Type) where
  | reading (r : Reading α) (phase : ReadPhase ε α) (begun : Nat)
  | filling (f : Fill α) (phase : FillPhase) (begun : Nat)
  | invalidating (i : Invalidation) (phase : InvalidationPhase) (begun : Nat)
  /-- It was given up. -/
  | gone

inductive CacheEvent (ε α : Type) where
  | read (r : Reading α)
  | invalidate (i : Invalidation)
  /-- A task takes a step, unless it has to wait. -/
  | step (actor : Nat)
  /-- What a read fetches is there. -/
  | answer (actor : Nat) (result : Except ε α)
  | abandon (actor : Nat)
  | wait (ms : Nat)
  | failing (on : Bool)
  | fault (call : CacheCall) (times : Nat)

structure CacheWorld (ε α : Type) where
  cache : CacheAside α
  actors : List (CacheActor ε α)
  clock : Nat
  /-- How many events there were. -/
  time : Nat
  /-- For each name that a fill has set, when the fetch of the last one began. -/
  origin : Entries Nat

def ReadPhase.isFetching {ε α : Type} : ReadPhase ε α → Bool
  | .joined _ (.fetching _) => true
  | _ => false

namespace CacheActor

variable {ε α : Type}

/-- One step of a task at some time, unless it has to wait. -/
def step (clock time : Nat) (c : CacheAside α) :
    CacheActor ε α → Option (CacheAside α × CacheActor ε α)
  | .reading r phase begun =>
    (r.step clock c phase).map fun (c, phase) =>
      (c, .reading r phase (if phase.isFetching then time else begun))
  | .filling f phase begun =>
    let (c, phase) := f.step clock c phase
    some (c, .filling f phase begun)
  | .invalidating i phase begun =>
    let (c, phase) := i.step clock c phase
    some (c, .invalidating i phase begun)
  | .gone => none

/-- Takes down whose value is set by a step from one state of a task to the next. -/
def note (origin : Entries Nat) : CacheActor ε α → CacheActor ε α → Entries Nat
  | .filling f (.set _) begun, .filling _ (.tag _) _ => origin.insert f.key begun
  | _, _ => origin

end CacheActor

namespace CacheWorld

variable {ε α : Type}

def begin (c : CacheAside α) : CacheWorld ε α := ⟨c, [], 0, 0, []⟩

def perform (w : CacheWorld ε α) : CacheEvent ε α → CacheWorld ε α
  | .read r => { w with actors := w.actors ++ [.reading r .lookup 0] }
  | .invalidate i => { w with actors := w.actors ++ [.invalidating i i.start w.time] }
  | .step n =>
    match w.actors[n]? with
    | some a =>
      match a.step w.clock w.time w.cache with
      | some (c, b) =>
        { w with cache := c, actors := w.actors.set n b, origin := CacheActor.note w.origin a b }
      | none => w
    | none => w
  | .answer n result =>
    match w.actors[n]? with
    | some (.reading r (.joined observed (.fetching flight)) begun) =>
      let fills := (result.toOption.map (r.fill w.cache observed)).toList
      { w with
        actors := w.actors.set n (.reading r (.joined observed (.fetched flight result)) begun) ++
          fills.map fun f => .filling f .check begun }
    | _ => w
  | .abandon n =>
    match w.actors[n]? with
    | some (.reading r phase _) =>
      { w with cache := r.abandon w.cache phase, actors := w.actors.set n .gone }
    | some (.invalidating _ _ _) => { w with actors := w.actors.set n .gone }
    | _ => w
  | .wait ms => { w with clock := w.clock + ms }
  | .failing on =>
    { w with cache := { w.cache with store := { w.cache.store with failing := on } } }
  | .fault call times =>
    { w with cache := { w.cache with
        store := { w.cache.store with faults := w.cache.store.faults.arm call times } } }

def after (w : CacheWorld ε α) (e : CacheEvent ε α) : CacheWorld ε α :=
  { w.perform e with time := w.time + 1 }

def run (w : CacheWorld ε α) (events : List (CacheEvent ε α)) : CacheWorld ε α :=
  events.foldl after w

end CacheWorld

/-- Whether an invalidation names a key. -/
def Invalidation.Covers (key : String) : Invalidation → Prop
  | .keys named => key ∈ named
  | .entity own _ => own = key
  | .tag _ => False

/-!
Where the values that reads return are from. Beside the tasks on a cache it is taken down when the fetch of each
value began.
-/

structure CacheTrace (ε α : Type) where
  world : CacheWorld ε α
  /-- For each flight that was told a value, when the fetch of the value began. -/
  flown : Nat → Option Nat
  /-- For each read that has ended with a value, when the fetch of the value began. -/
  source : Nat → Option Nat

namespace CacheTrace

variable {ε α : Type}

def begin (c : CacheAside α) : CacheTrace ε α := ⟨.begin c, fun _ => none, fun _ => none⟩

/-- When the fetch began of the value that a read ends with by going from one state to another. -/
def sourceOf (t : CacheTrace ε α) : CacheActor ε α → CacheActor ε α → Option Nat
  | .reading r .lookup _, .reading _ (.hit _) _ => t.world.origin.get? (t.world.cache.fullKey r.key)
  | .reading _ (.joined _ (.follow flight)) _, .reading _ (.joined _ (.done _)) _ => t.flown flight
  | .reading _ (.joined _ (.fetching _)) begun, .reading _ (.joined _ (.done _)) _
  | .reading _ (.joined _ (.announce _ _)) begun, .reading _ (.joined _ (.done _)) _ => some begun
  | _, _ => none

def after (t : CacheTrace ε α) (e : CacheEvent ε α) : CacheTrace ε α where
  world := t.world.after e
  flown flight :=
    match e with
    | .step n =>
      match t.world.actors[n]? with
      | some (.reading _ (.joined _ (.announce own (.ok _))) begun) =>
        if flight = own then some begun else t.flown flight
      | _ => t.flown flight
    | _ => t.flown flight
  source n :=
    match t.world.actors[n]?, (t.world.after e).actors[n]? with
    | some a, some b => (t.sourceOf a b).or (t.source n)
    | _, _ => t.source n

def run (t : CacheTrace ε α) (events : List (CacheEvent ε α)) : CacheTrace ε α := events.foldl after t

end CacheTrace

/-- A read of a name leads a flight, with a value whose fetch began at some time. -/
def CacheWorld.Lingers {ε α : Type} (w : CacheWorld ε α) (name : String) (begun : Nat) : Prop :=
  ∃ r observed phase, .reading r (.joined observed phase) begun ∈ w.actors ∧ w.cache.fullKey r.key = name ∧
    ∃ flight, phase = .fetching (some flight) ∨ ∃ result, phase = .leave flight result

end Workboard
