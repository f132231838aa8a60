import Workboard.Broker.Publisher
import Workboard.Http.Server
import Workboard.Http.Socket
import Workboard.Relay.Batch

/-!
The whole server: requests fill the outbox, the relay publishes its rows to a broker within the process, a
listener passes them on to the hub, and sockets bring them to the clients.
-/

namespace Workboard

structure LiveServer where
  api : ApiServer
  timing : HubTiming
  batchSize : Nat
  /-- The time that the relay writes down. -/
  wall : Instant
  broker : LocalBroker
  /-- The place of the hub's listener in the broker's channel, while it listens. -/
  listener : Option BroadcastReader
  outcomes : List RowOutcome
  sockets : List Socket
  /-- Milliseconds since the server started. -/
  clock : Nat

namespace LiveServer

def brokerCapacity : Nat := 64

def start (api : ApiServer) (timing : HubTiming) (batchSize : Nat) (wall : Instant) : LiveServer :=
  let broker := LocalBroker.ofCapacity brokerCapacity
  ⟨api, timing, batchSize, wall, broker, some broker.channel.subscribe, [], [], 0⟩

def onHub (s : LiveServer) (f : Hub → Hub) : LiveServer :=
  { s with api := { s.api with hub := f s.api.hub } }

def socket? (s : LiveServer) (connection : Uuid) : Option Socket :=
  s.sockets.find? fun k => k.connection = connection

/-- Answers a request; one that asks for a socket may open it. -/
def request (s : LiveServer) (r : HttpRequest) : HttpAnswer × LiveServer :=
  let (a, api) := s.api.handle r
  let opened := match a.body with
    | .socket connection => [Socket.ofConnection connection]
    | _ => []
  (a, { s with api := api, sockets := s.sockets ++ opened })

/-- Every event is published to the broker. -/
def relay (s : LiveServer) : Relay LocalBroker Unit where
  registry := HandlerRegistry.empty.registerMany TodoEvent.names ()
  handle _ row w :=
    match w.state.publish (.ofRecord row) with
    | (.ok (), broker) => (.accepted, { w with state := broker })
    | (.error e, broker) => (.refused e.message, { w with state := broker })
  batchSize := s.batchSize
  now := s.wall

def onOutbox (s : LiveServer) (f : OutboxStore → OutboxStore) : LiveServer :=
  let service := s.api.service
  let db := { service.db with outbox := f service.db.outbox }
  { s with api := { s.api with service := { service with db := db } } }

def relayBatch (s : LiveServer) : Except BatchError BatchReport × LiveServer :=
  let (r, w) := s.relay.processBatch ⟨s.api.service.db.outbox, s.outcomes, s.broker⟩
  (r, { s with outcomes := w.outcomes, broker := w.state }.onOutbox fun _ => w.store)

def dispatch (s : LiveServer) (raw : Bytes) : Nat × LiveServer :=
  let (n, hub) := s.api.hub.dispatch RoomFilter.standard raw
  (n, s.onHub fun _ => hub)

/-- Registers a connection that has no socket. -/
def register (s : LiveServer) (user : UserId) (rooms : List String) :
    Except HubError Connection × LiveServer :=
  let (id, ids) := s.api.ids.fresh
  let (r, hub) := s.api.hub.register id user rooms
  (r, { s with api := { s.api with hub := hub, ids := ids } })

def modifySocket (s : LiveServer) (connection : Uuid) (f : Socket → Socket) : LiveServer :=
  { s with sockets := s.sockets.map fun k => if k.connection = connection then f k else k }

/-- A client sends a frame. Tell whether it could be written. -/
def post (s : LiveServer) (connection : Uuid) (i : ClientInput) : Bool × LiveServer :=
  (((s.socket? connection).map fun k => (k.post i).1).getD false,
    s.modifySocket connection fun k => (k.post i).2)

/-- A client reads the frames that arrived, and whether the server has hung up. -/
def collect (s : LiveServer) (connection : Uuid) : List ServerFrame × Bool × LiveServer :=
  match s.socket? connection with
  | none => ([], true, s)
  | some k => (k.collect.1, k.hasEnded, s.modifySocket connection fun k => k.collect.2)

/-- Does something with each socket and the hub, in the order in which the sockets were opened. -/
def eachSocket (f : Socket → Hub → Socket × Hub) : List Socket → Hub → List Socket × Hub
  | [], h => ([], h)
  | k :: ks, h =>
    let (k, h) := f k h
    let (ks, h) := eachSocket f ks h
    (k :: ks, h)

def onSockets (s : LiveServer) (f : Socket → Hub → Socket × Hub) : LiveServer :=
  let (sockets, hub) := eachSocket f s.sockets s.api.hub
  { s with sockets := sockets }.onHub fun _ => hub

/-- The listener passes on what waits in the broker's channel. -/
def listen (s : LiveServer) : LiveServer :=
  match s.listener with
  | none => s
  | some reader =>
    let (raws, reader) := s.broker.channel.rest reader
    { s with listener := some reader }.onHub fun h => h.dispatchAll RoomFilter.standard raws

/-- Lets everything happen that can happen without time passing. -/
def settle (s : LiveServer) : LiveServer :=
  let s := { s with api := { s.api with service := s.api.service.settle } }
  s.listen.onSockets fun k h => k.pump s.timing s.clock h

def advance (s : LiveServer) (ms : Nat) : LiveServer :=
  let s := s.settle
  let deadline := s.clock + ms
  { s with clock := deadline }.onSockets fun k h => k.elapse s.timing deadline (deadline + 1) h

/-- Stops the listener and tells all connections to end. -/
def beginShutdown (s : LiveServer) : LiveServer := { s with listener := none }.onHub Hub.beginShutdown

/-- Shuts down and waits for the tasks of the sockets. -/
def shutdown (s : LiveServer) : LiveServer := s.beginShutdown.settle

end LiveServer

end Workboard
