import Workboard.Broker.Publisher
import Workboard.Realtime.Hub
import Workboard.Task

/-!
Scripts of connections that are held by name, of tasks that read connections until they end, and of a
listener that passes messages of a local broker on to the hub.
-/

namespace Workboard

inductive HubLog where
  | message (name : String) (m : Bytes)
  | ended (name : String)
  | listenerEnded

structure HubBench where
  hub : Hub
  ids : IdSupply
  /-- The connections that are held, by name. -/
  held : List (String × Uuid)
  latest : List (String × Uuid)
  log : List HubLog
  broker : Option LocalBroker
  /-- The number of the listener on the broker. -/
  listener : Nat
  cancelled : Bool
  /-- Whether a shutdown that was begun has ended. -/
  stopped : Option Bool

inductive HubTask where
  | reading (name : String) (id : Uuid) (lingerMs : Nat)
  | lingering (name : String) (id : Uuid) (wake : Nat)
  | listening (number : Nat) (reader : BroadcastReader)
  | beginShutdown
  | stopping
  | stopAndWait
  | waitStopped
  | rest (wake : Nat)

namespace HubBench

def ofCapacity (capacity : Nat) : HubBench :=
  ⟨.ofCapacity capacity, .empty, [], [], [], none, 0, false, none⟩

def held? (b : HubBench) (name : String) : Option Uuid :=
  (b.held.find? fun e => e.1 = name).map (·.2)

def release (b : HubBench) (name : String) : HubBench :=
  { b with held := b.held.filter fun e => e.1 != name }

/-- Lets go of a connection that is held. -/
def drop (b : HubBench) (name : String) : HubBench :=
  match b.held? name with
  | some id => { b.release name with hub := b.hub.unregister id }
  | none => b

def register (b : HubBench) (name : String) (user : UserId) (rooms : List String) :
    Except HubError Connection × HubBench :=
  let (id, ids) := b.ids.fresh
  match b.hub.register id user rooms with
  | (.error e, hub) => (.error e, { b with hub := hub })
  | (.ok c, hub) =>
    let b := { b with hub := hub, ids := ids }.drop name
    (.ok c,
      { b with
        held := b.held ++ [(name, id)]
        latest := (b.latest.filter fun e => e.1 != name) ++ [(name, id)] })

/-- The names whose latest connection has been told to end. -/
def closedNames (b : HubBench) : List String :=
  (b.latest.filter fun e => b.hub.isClosed e.2).map (·.1)

def write (b : HubBench) (entry : HubLog) : HubBench := { b with log := b.log ++ [entry] }

/-- The messages that wait for a connection, and whether it has ended. -/
def readAll (name : String) (id : Uuid) : Nat → HubBench → Bool × HubBench
  | 0, b => (false, b)
  | n + 1, b =>
    match b.hub.next id with
    | (.message m, hub) => readAll name id n ({ b with hub := hub }.write (.message name m))
    | (.closed, hub) => (true, { b with hub := hub })
    | (.pending, hub) => (false, { b with hub := hub })

def listenerStops (b : HubBench) (number : Nat) : Bool :=
  (b.cancelled && b.listener == number) || b.hub.shuttingDown || b.listener != number

def run (filter : RoomFilter) (now : Nat) (b : HubBench) :
    HubTask → HubBench × Option HubTask × List HubTask
  | .reading name id lingerMs =>
    match readAll name id (b.hub.waiting id + 1) b with
    | (true, b) => (b, some (.lingering name id (now + lingerMs)), [])
    | (false, b) => (b, some (.reading name id lingerMs), [])
  | .lingering name id _ =>
    let b := b.write (.ended name)
    ({ b with hub := (b.hub.unregister id).untrack }, none, [])
  | .listening number reader =>
    if b.listenerStops number then
      let b := b.write .listenerEnded
      ({ b with hub := b.hub.untrack }, none, [])
    else
      match b.broker with
      | none => (b, some (.listening number reader), [])
      | some broker =>
        let (raws, reader) := broker.channel.rest reader
        ({ b with hub := b.hub.dispatchAll filter raws }, some (.listening number reader), [])
  | .beginShutdown =>
    let b := { b with hub := b.hub.beginShutdown }
    if b.hub.hasStopped then ({ b with stopped := some true }, none, []) else (b, some .stopping, [])
  | .stopping => ({ b with stopped := some true }, none, [])
  | .stopAndWait => ({ b with hub := b.hub.beginShutdown }, some .waitStopped, [])
  | .waitStopped => (b, none, [])
  | .rest _ => (b, none, [])

def ready (now : Nat) (b : HubBench) : HubTask → Bool
  | .reading _ id _ => b.hub.hasNext id
  | .lingering _ _ wake => wake ≤ now
  | .listening number reader =>
    b.listenerStops number ||
      ((b.broker.map fun k => decide (reader.passed < k.channel.sent)).getD false)
  | .beginShutdown => true
  | .stopping => b.hub.hasStopped
  | .stopAndWait => true
  | .waitStopped => b.hub.hasStopped
  | .rest wake => wake ≤ now

def wakeAt : HubTask → Option Nat
  | .lingering _ _ wake => some wake
  | .rest wake => some wake
  | _ => none

def kind (filter : RoomFilter) : TaskKind HubBench HubTask := ⟨ready, run filter, wakeAt⟩

end HubBench

inductive HubStep where
  | register (name : String) (user : UserId) (rooms : List String)
  | dispatch (raw : Bytes)
  | next (name : String)
  | close (name : String)
  | drop (name : String)
  | track (name : String) (lingerMs : Nat)
  | listen (messages : List Bytes) (cancelled : Bool)
  | listenLocal (capacity : Nat)
  | publish (message : BrokerMessage)
  | cancelListen
  | shutdown
  | beginShutdown
  | stopped
  | advance (ms : Nat)

inductive HubAnswer where
  | none
  | gone
  | registered (r : Except HubError Connection)
  | count (n : Nat)
  | next (m : NextMessage Bytes)
  | published (r : Except BrokerError Unit)
  | stopped (b : Option Bool)

namespace HubStep

abbrev Bench := Tasks HubBench HubTask

/-- Does something with a connection that is held. -/
def withHeld (s : Bench) (name : String) (f : Uuid → HubAnswer × Bench) : HubAnswer × Bench :=
  match s.world.held? name with
  | some id => f id
  | none => (.gone, s)

def run (filter : RoomFilter) (s : Bench) : HubStep → HubAnswer × Bench
  | .register name user rooms =>
    let (r, world) := s.world.register name user rooms
    (.registered r, { s with world := world })
  | .dispatch raw =>
    let (n, hub) := s.world.hub.dispatch filter raw
    (.count n, { s with world := { s.world with hub := hub } })
  | .next name => withHeld s name fun id =>
    let (m, hub) := s.world.hub.next id
    (.next m, { s with world := { s.world with hub := hub } })
  | .close name => withHeld s name fun id =>
    (.none, { s with world := { s.world with hub := s.world.hub.unregister id } })
  | .drop name => (.none, { s with world := s.world.drop name })
  | .track name lingerMs => withHeld s name fun id =>
    let world := s.world.release name
    (.none,
      { s with
        world := { world with hub := world.hub.track }
        tasks := s.tasks ++ [.reading name id lingerMs] })
  | .listen messages cancelled =>
    let hub := if cancelled then s.world.hub else s.world.hub.dispatchAll filter messages
    (.none, { s with world := { s.world with hub := hub } })
  | .listenLocal capacity =>
    let broker := LocalBroker.ofCapacity capacity
    let number := s.world.listener + 1
    (.none,
      { s with
        world :=
          { s.world with
            hub := s.world.hub.track, broker := some broker, listener := number, cancelled := false }
        tasks := s.tasks ++ [.listening number broker.channel.subscribe] })
  | .publish message =>
    match s.world.broker with
    | none => (.none, s)
    | some broker =>
      let (r, broker) := broker.publish message
      (.published r, { s with world := { s.world with broker := some broker } })
  | .cancelListen => (.none, { s with world := { s.world with cancelled := true } })
  | .shutdown => (.none, (s.runMain (HubBench.kind filter) Tasks.enough .stopAndWait).1)
  | .beginShutdown =>
    (.none,
      { s with world := { s.world with stopped := some false }, tasks := s.tasks ++ [.beginShutdown] })
  | .stopped => (.stopped s.world.stopped, s)
  | .advance ms =>
    (.none, (s.runMain (HubBench.kind filter) Tasks.enough (.rest (s.clock + ms))).1)

def runSettled (filter : RoomFilter) (s : Bench) (step : HubStep) (settle : Bool) :
    HubAnswer × Bench :=
  let (r, s) := step.run filter { s with world := { s.world with log := [] } }
  (r, if settle then s.settle (HubBench.kind filter) Tasks.enough else s)

end HubStep

end Workboard
