import Workboard.Scenario.Brokers
import Workboard.Scenario.Hub
import Workboard.Broker.Kafka
import Workboard.KeyValue.Store
import Workboard.Metrics.Exposition
import Workboard.Realtime.Listener
import Workboard.Relay.Poll

/-!
Scenarios of brokers and stores outside of the process.
-/

namespace Workboard.Scenario

open Json KeyValue

def redisKind : RedisError → String
  | .connection _ => "ConnectionError"
  | .publish _ => "PublishError"
  | .subscribe _ => "SubscribeError"
  | .config _ => "ConfigError"

def kafkaKind : KafkaError → String
  | .connection _ => "ConnectionError"
  | .producer _ => "ProducerError"
  | .config _ => "ConfigError"

def runBackoff (v : Value) : Got Value := do
  let span (name : String) : Got Span := do return .ofMillis (UInt64.ofNat (← get v name asNat))
  let b : Backoff := ⟨← span "base_ms", ← span "max_ms"⟩
  let attempts ← listOf v "attempts" fun w => need "attempts" (asNat w)
  let delays ← attempts.mapM fun n => need "delay" (b.delayAt? (UInt32.ofNat n))
  return list (fun d => str (toString d.toMillis)) delays

def runTopic (v : Value) : Got Value := do
  let start ← get v "prefix" asText
  let scope := BrokerMessage.scopeOf (← get v "event_type" asText)
  return obj [("topic", str (KafkaBroker.topicOf start scope)),
    ("channel", str (RedisBroker.channelOf start scope))]

def readListener (v : Value) (url start : String) : Got (Except RedisError ChannelListener) := do
  let hub := { AppConfig.development.hub with
    globalChannel := ← get v "global" asText
    scopeChannels := ← texts v "scopes" }
  return ChannelListener.ofConfig ⟨url, start⟩ hub

def runChannels (v : Value) : Got Value := do
  let l ← readListener v (← get v "url" asText) (← get v "prefix" asText)
  return result (fun e => failure (redisKind e) e.message) (fun l => list str l.channels) l

/-- A message without content, for what follows from the type of an event. -/
def emptyMessage (eventType : String) : Got BrokerMessage := do
  let id ← need "id" (Uuid.ofText? "00000000-0000-0000-0000-000000000000")
  return ⟨id, eventType, id, [], []⟩

def closeTimes : Nat → KafkaBroker → List (Except BrokerError Unit) × KafkaBroker
  | 0, b => ([], b)
  | n + 1, b =>
    let (r, b) := b.close (.ok ())
    let (rs, b) := closeTimes n b
    (r :: rs, b)

def runKafka (v : Value) : Got Value := do
  let c : KafkaConfig := { AppConfig.development.kafka with
    brokers := ← texts v "brokers"
    topicPrefix := ← get v "prefix" asText
    acks := ← get v "acks" asText
    sendTimeout := ← getD v "send_timeout_ms" asNat 5000 }
  match KafkaBroker.ofConfig c with
  | .error e => return failure (kafkaKind e) e.message
  | .ok b =>
    let m ← emptyMessage (← get v "event_type" asText)
    let (closes, b) := closeTimes (← getD v "closes" asNat 1) b
    let after := if b.closed then some (b.publish (fun _ => .ok ()) m) else none
    return obj [("name", str KafkaError.brokerName), ("topic", str (b.record m).topic),
      ("closes", list (result brokerFailure unit) closes),
      ("publish_after_close", option (result brokerFailure unit) after)]

def shownError (text : String) (e : BrokerError) : Value :=
  obj [("text", str text), ("broker", brokerFailure e)]

def kindsOf (kind : String) (e : BrokerError) : Value :=
  obj [("kind", str kind), ("broker", str (brokerKind e))]

/-- Whether a fault is called one of the configuration. -/
def namesConfig (name : String) : Bool := (splitAt? "config".toList name.toList).isSome

def clientFault (name : String) : ClientFault :=
  match name with
  | "auth" => .authentication
  | "type" => .wrongType
  | name => if namesConfig name then .invalidConfig else .inputOutput

def producerFault (name : String) : ProducerFault :=
  match name with
  | "production" => .production
  | "flush" => .flush
  | "subscription" => .subscription
  | name => if namesConfig name then .config else .global

def runInfraError (v : Value) : Got Value := do
  let m ← getD v "message" asText ""
  let redis (e : RedisError) : Value := shownError e.message e.toBroker
  let kafka (e : KafkaError) : Value := shownError e.message e.toBroker
  let redisFault (f : ClientFault) : Value :=
    let e := RedisError.ofFault f m; kindsOf (redisKind e) e.toBroker
  let kafkaFault (f : ProducerFault) : Value :=
    let e := KafkaError.ofFault f m; kindsOf (kafkaKind e) e.toBroker
  match ← get v "case" asText with
  | "redis.connection" => return redis (.connection m)
  | "redis.publish" => return redis (.publish m)
  | "redis.subscribe" => return redis (.subscribe m)
  | "redis.config" => return redis (.config m)
  | "kafka.connection" => return kafka (.connection m)
  | "kafka.producer" => return kafka (.producer m)
  | "kafka.config" => return kafka (.config m)
  | "raw.kafka.canceled" => return kafka (.ofFault .canceled m)
  | c =>
    match c.splitOn "." with
    | ["raw", "redis", name] => return redisFault (clientFault name)
    | ["raw", "kafka", name] => return kafkaFault (producerFault name)
    | _ => .error ("case " ++ c)

/-- The desk that the steps of a scenario work at. -/
structure ServerDesk where
  server : Server
  broker : RedisBroker

def storeResult {α : Type} (f : α → Value) : Except CacheError α → Value
  | .ok a => ok (f a)
  | .error e => kindOnly (cacheKind e)

def ttlOf (v : Value) : Got Nat := do
  return (← getD v "ttl_ms" asNat 60000) * 1000000 + (← getD v "ttl_ns" asNat 0)

/-- Cuts a message before its reason. -/
def beforeReason (message : String) : String :=
  match splitAt? " 失败: ".toList message.toList with
  | some (before, _) => String.ofList before
  | none => message

def publishFailure (e : BrokerError) : Value := failure (brokerKind e) (beforeReason e.message)

/-- Arms faults of a command: an error in place of its reply, or a reply of another type. -/
def armServer (s : Server) (on : String) (times : Nat) : Server :=
  match on.splitOn " wrong type" with
  | [name, ""] => { s with oddities := s.oddities.arm name times }
  | _ => { s with faults := s.faults.arm on times }

def pending (h : Hub) (id : Uuid) : Nat → List Bytes × Hub
  | 0 => ([], h)
  | n + 1 =>
    match h.next id with
    | (.message raw, h) =>
      let (raws, h) := pending h id n
      (raw :: raws, h)
    | (_, h) => ([], h)

def runListen (d : ServerDesk) (v : Value) : Got (ServerDesk × Value) := do
  let url := AppConfig.development.redis.url
  let l ← need "address" (← readListener v url d.broker.channelPrefix).toOption
  let id := (← emptyMessage "").eventId
  let hub := Hub.ofCapacity HubTiming.standard.capacity
  let (_, hub) := hub.register id ⟨id⟩ (← texts v "rooms")
  let hub := if ← flag v "hub_stopped" then hub.beginShutdown else hub
  let rounds ← listOf v "rounds" fun w => do
    let pairs ← need "rounds" (asList w)
    pairs.mapM fun p => do
      match p with
      | .array [_, raw] => need "rounds" (asBytes raw)
      | _ => .error "bad rounds"
  let size := rounds.flatten.length
  let (shown, server, _) :=
    l.rounds (← flag v "cancelled") (fun h => pending h id (size + 1)) rounds .start d.server hub
  return ({ d with server := server },
    obj [("rounds", list (list bytes) shown), ("ended", .bool true)])

def runServerStep (d : ServerDesk) (v : Value) : Got (ServerDesk × Value) := do
  let keep {α : Type} (f : α → Value) (r : Except CacheError α × Server) : ServerDesk × Value :=
    ({ d with server := r.2 }, storeResult f r.1)
  let s := d.server
  match ← get v "do" asText with
  | "get" => return keep (option bytes) (Store.get s (← get v "key" asText))
  | "set" =>
    return keep unit (Store.set s (← get v "key" asText) (← get v "value" asBytes) (← ttlOf v))
  | "delete" => return keep unit (Store.delete s (← texts v "keys"))
  | "add_to_tag" =>
    return keep unit (Store.addToTag s (← get v "tag" asText) (← get v "key" asText) (← ttlOf v))
  | "tag_members" => return keep (list str) (Store.tagMembers s (← get v "tag" asText))
  | "incr" => return keep .int (Store.incr s (← get v "key" asText))
  | "counter" => return keep .int (Store.counter s (← get v "key" asText))
  | "publish" =>
    let m ← readMessage (← get v "message" some)
    let (r, s) := d.broker.publish s m
    return ({ d with server := s }, obj [("result", result publishFailure unit r),
      ("channel", str (d.broker.channel m)), ("name", str RedisError.brokerName)])
  | "close" => return ({ d with broker := d.broker.close }, ok .null)
  | "receivers" => return ({ d with server := { s with receivers := ← get v "n" asNat } }, .null)
  | "fault" =>
    return ({ d with server := armServer s (← get v "on" asText) (← getD v "times" asNat 1) }, .null)
  | "connect_bad" =>
    let shown := match ServerAddress.ofUrl? (← get v "url" asText) with
      | some _ => .null
      | none =>
        let e := ChannelListener.badAddress
        .array [str (redisKind e), str (cut e.message)]
    return (d, .array [shown, shown])
  | "listen" => runListen d v
  | step => .error ("step " ++ step)

def runServer (v : Value) : Got Value := do
  let start ← getD v "prefix" asText "taskhub:events:"
  let (shown, _) ← steps (fun (d : ServerDesk) w => do
    let (d, r) ← runServerStep d w
    let (log, s) := d.server.takeLog
    return ({ d with server := s }, obj [("r", r), ("commands", list (fun c => list bytes c.toWords) log)]))
    ⟨.empty, ⟨start, false⟩⟩ (← listOf v "steps" .ok)
  return .array shown

def exampleSamples : List Metrics.Sample :=
  let half : Number := .real (2.5 : Float).toBits
  [⟨Metrics.connections.name, [], half⟩, ⟨Metrics.backlog.name, [], half⟩,
    ⟨Metrics.backlogAge.name, [], half⟩, ⟨Metrics.dropped.name, [], .int 3⟩,
    ⟨Metrics.slowConsumers.name, [], .int 3⟩,
    ⟨Metrics.outboxEvents.name, [("outcome", "failed")], .int 4⟩]

def runExposition (_ : Value) : Got Value :=
  .ok (list str (sortTexts (Metrics.exposition exampleSamples)))

def runConstants (_ : Value) : Got Value :=
  .ok <| obj [("development", AppConfig.development.toTree),
    ("headers", list str [EventMapper.roomHeader, EventMapper.contentTypeHeader,
      EventMapper.eventIdHeader, EventMapper.jsonContentType]),
    ("hub", list nat [HubTiming.standard.capacity, HubTiming.standard.pingMs, HubTiming.standard.pongMs]),
    ("max_title_len", nat maxTitleLength),
    ("relay", list nat [RelayTiming.standard.pollMs, RelayTiming.standard.batchSize,
      RelayTiming.standard.metricsMs]),
    ("todo_event_types", list str TodoEvent.names)]

end Workboard.Scenario
