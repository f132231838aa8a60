import Workboard.Cache.Aside
import Workboard.Service.Error
import Workboard.Task

/-!
Scripts of reads and invalidations on one cache of texts. Sources answer after a delay by the clock of the
tasks; entries expire by the clock of the wall, which stands still.
-/

namespace Workboard

/-- A source that is asked once: how long it takes, and what it answers. -/
structure ScriptedFetch (α : Type) where
  name : String
  delay : Option Nat
  result : Except ServiceError α

namespace ScriptedFetch

variable {α : Type}

/-- The answer if it is there by now, else the time when it will be. -/
def poll (f : ScriptedFetch α) (now : Nat) (wake : Option Nat) :
    Option Nat × Option (Except ServiceError α) :=
  match wake with
  | some t => if t ≤ now then (wake, some f.result) else (wake, none)
  | none =>
    match f.delay with
    | none | some 0 => (none, some f.result)
    | some d => (some (now + d), none)

/-- Whether the answer is there by now. -/
def arrived (_f : ScriptedFetch α) (now : Nat) (wake : Option Nat) : Bool :=
  match wake with
  | some t => t ≤ now
  | none => true

end ScriptedFetch

structure ReadTask where
  reading : Reading String
  fetch : ScriptedFetch String
  /-- A read of the script itself is waited for; others leave their result in a list. -/
  awaited : Bool
  cancelled : Bool
  phase : ReadPhase ServiceError String
  wake : Option Nat

inductive CacheTask where
  | read (t : ReadTask)
  | fill (f : Fill String)
  | rest (wake : Nat)

/-- The cache, the sources that were asked, and the results of reads. -/
structure CacheBench where
  cache : CacheAside String
  fetched : List String
  done : List (String × Except ServiceError String)
  answer : Option (Except ServiceError String)

namespace CacheBench

def wall : Nat := 0

def settleRead (b : CacheBench) (t : ReadTask) (r : Except ServiceError String) : CacheBench :=
  if t.awaited then { b with answer := some r } else { b with done := b.done ++ [(t.fetch.name, r)] }

/-- Takes up to `n` steps of a read, until it waits or ends. A read takes at most ten. -/
def advance (now : Nat) : Nat → CacheBench → ReadTask → CacheBench × Option CacheTask × List CacheTask
  | 0, b, t => (b, some (.read t), [])
  | n + 1, b, t =>
    match t.phase.result? with
    | some r => (b.settleRead t r, none, [])
    | none =>
      match t.phase with
      | .joined observed (.fetching flight) =>
        match t.fetch.poll now t.wake with
        | (wake, none) => (b, some (.read { t with wake := wake }), [])
        | (_, some r) =>
          let fill := (r.toOption).map (t.reading.fill b.cache observed)
          let (b, rest, new) :=
            advance now n b { t with phase := .joined observed (.fetched flight r) }
          (b, rest, (fill.map CacheTask.fill).toList ++ new)
      | phase =>
        match t.reading.step wall b.cache phase with
        | none => (b, some (.read t), [])
        | some (c, next) =>
          let fetched := match phase with
            | .joined _ (.start _) => b.fetched ++ [t.fetch.name]
            | _ => b.fetched
          advance now n { b with cache := c, fetched := fetched } { t with phase := next }

def run (now : Nat) (b : CacheBench) : CacheTask → CacheBench × Option CacheTask × List CacheTask
  | .read t =>
    if t.cancelled then ({ b with cache := t.reading.abandon b.cache t.phase }, none, [])
    else advance now 16 b t
  | .fill f => ({ b with cache := f.run wall b.cache }, none, [])
  | .rest _ => (b, none, [])

def ready (now : Nat) (b : CacheBench) : CacheTask → Bool
  | .read t =>
    t.cancelled ||
      match t.phase with
      | .joined _ (.fetching _) => t.fetch.arrived now t.wake
      | .joined _ (.follow n) => (b.cache.flights.outcome? n).isSome
      | _ => true
  | .fill _ => true
  | .rest wake => wake ≤ now

def wakeAt : CacheTask → Option Nat
  | .read t =>
    match t.phase with
    | .joined _ (.fetching _) => t.wake
    | _ => none
  | .fill _ => none
  | .rest wake => some wake

def kind : TaskKind CacheBench CacheTask := ⟨ready, run, wakeAt⟩

end CacheBench

inductive CacheStep where
  | read (reading : Reading String) (fetch : ScriptedFetch String) (awaited : Bool)
  | abort (name : String)
  | advance (ms : Nat)
  | invalidate (i : Invalidation)
  | revision (scope : String)
  | failing (on : Bool)
  | fault (call : CacheCall) (times : Nat)
  | put (key : String) (value : Bytes) (ttl : Nat)
  | peek (key : String)
  | peekBytes (key : String)
  | tagMembers (tag : String)

inductive CacheAnswer where
  | none
  | read (r : Option (Except ServiceError String))
  | invalidated (r : Except CacheError (Option Int))
  | counted (r : Except CacheError Int)
  | put (r : Ending CacheError Unit)
  | peeked (r : Except CacheError Bool)
  | bytes (r : Except CacheError (Option Bytes))
  | members (r : Except CacheError (List String))

namespace CacheStep

abbrev Bench := Tasks CacheBench CacheTask

def setStore (s : Bench) (store : MemoryStore) : Bench :=
  { s with world := { s.world with cache := { s.world.cache with store := store } } }

def direct {α : Type} (s : Bench) (call : MemoryStore → α × MemoryStore) : α × Bench :=
  let store := s.world.cache.store
  let (a, after) := call { store with faults := .none }
  (a, setStore s { after with faults := store.faults })

/-- Marks the latest read of a name as given up. -/
def cancelLast (name : String) (tasks : List CacheTask) : List CacheTask :=
  (modifyLast tasks.reverse).reverse
where
  modifyLast : List CacheTask → List CacheTask
    | [] => []
    | .read t :: ts =>
      if t.fetch.name = name ∧ !t.awaited then .read { t with cancelled := true } :: ts
      else .read t :: modifyLast ts
    | t :: ts => t :: modifyLast ts

def run (s : Bench) : CacheStep → CacheAnswer × Bench
  | .read reading fetch awaited =>
    let task : CacheTask := .read ⟨reading, fetch, awaited, false, .lookup, none⟩
    if awaited then
      let (s, _) := Tasks.runMain CacheBench.kind Tasks.enough
        { s with world := { s.world with answer := none } } task
      (.read s.world.answer, s)
    else (.none, { s with tasks := s.tasks ++ [task] })
  | .abort name => (.none, { s with tasks := cancelLast name s.tasks })
  | .advance ms =>
    (.none, (Tasks.runMain CacheBench.kind Tasks.enough s (.rest (s.clock + ms))).1)
  | .invalidate i =>
    let (r, cache) := i.run CacheBench.wall s.world.cache
    (.invalidated r, { s with world := { s.world with cache := cache } })
  | .revision scope =>
    let (r, cache) := s.world.cache.revision scope
    (.counted r, { s with world := { s.world with cache := cache } })
  | .failing on => (.none, setStore s { s.world.cache.store with failing := on })
  | .fault call times =>
    let store := s.world.cache.store
    (.none, setStore s { store with faults := store.faults.arm call times })
  | .put key value ttl =>
    let (r, s) := direct s (·.set CacheBench.wall key value ttl)
    (.put r, s)
  | .peek key =>
    let (r, s) := direct s (·.get CacheBench.wall key)
    (.peeked (r.map (·.isSome)), s)
  | .peekBytes key =>
    let (r, s) := direct s (·.get CacheBench.wall key)
    (.bytes r, s)
  | .tagMembers tag =>
    let (r, store) := s.world.cache.store.tagMembers CacheBench.wall tag
    (.members r, setStore s store)

/-- A step, after which the tasks go on until each of them waits. -/
def runSettled (s : Bench) (step : CacheStep) (settle : Bool) : CacheAnswer × Bench :=
  let (a, s) := step.run { s with world := { s.world with fetched := [], done := [] } }
  (a, if settle then s.settle CacheBench.kind Tasks.enough else s)

end CacheStep

end Workboard
