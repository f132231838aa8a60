import Workboard.Scenario.Hub
import Workboard.Scenario.Relay
import Workboard.Scenario.Service
import Workboard.Scenario.Tokens
import Workboard.Http.Live

/-!
Scenarios of the whole server: requests, the relay, sockets, and connections that have no socket.
-/

namespace Workboard.Scenario

open Json

/-- A server with the names that the script gives to answers, connections and sockets. -/
structure HttpDesk where
  server : LiveServer
  showsMetrics : Bool
  answered : List (String × Uuid)
  held : List (String × Uuid)
  sockets : List (String × Uuid)

def named? (es : List (String × Uuid)) (name : String) : Option Uuid :=
  (es.find? fun e => e.1 = name).map (·.2)

def putName (es : List (String × Uuid)) (name : String) (id : Uuid) : List (String × Uuid) :=
  (name, id) :: es.filter fun e => e.1 != name

/-- Puts identifiers for the names in braces. -/
def fillTarget (answered : List (String × Uuid)) : Nat → List Char → List Char
  | 0, cs => cs
  | _ + 1, [] => []
  | fuel + 1, c :: cs =>
    if c = '\x7b' && cs.contains '\x7d' then
      let name := String.ofList (cs.takeWhile (· != '\x7d'))
      ((named? answered name).getD .nil).toText.toList ++
        fillTarget answered fuel ((cs.dropWhile (· != '\x7d')).drop 1)
    else c :: fillTarget answered fuel cs

def readTarget (d : HttpDesk) (v : Value) : Got String := do
  let text ← get v "uri" asText
  return String.ofList (fillTarget d.answered (text.length + 1) text.toList)

def readBearer (v : Value) : Got RequestHeaders := do
  match ← opt v "bearer" asText with
  | some token => return [(Credentials.header, Bytes.ofText ("Bearer " ++ token))]
  | none => return []

/-- The body, and whether it is taken for JSON unless something else is said. -/
def readBody (v : Value) : Got (Bytes × Bool) := do
  match member? v "json" with
  | some (.array vs) => return ((Value.array vs).print, true)
  | some (.object ms) => return ((Value.object ms).print, true)
  | some w => return (w.print, false)
  | none =>
    match ← opt v "body" asBytes with
    | some bs => return (bs, true)
    | none => return ([], false)

def readRequest (d : HttpDesk) (v : Value) : Got HttpRequest := do
  let (body, isJson) ← readBody v
  let kind ← getD v "content_type" asText (if isJson then "application/json" else "")
  let kinds := if kind.isEmpty then [] else [("content-type", Bytes.ofText kind)]
  let headers ← listOf v "headers" readHeader
  return .ofTarget (← get v "method" asText) (← readTarget d v) ((← readBearer v) ++ kinds ++ headers)
    body false

/-- The request by which a client opens a socket. -/
def readHandshake (d : HttpDesk) (v : Value) : Got HttpRequest := do
  let headers : RequestHeaders :=
    [("connection", Bytes.ofText "Upgrade"), ("upgrade", Bytes.ofText "websocket"),
      ("sec-websocket-version", Bytes.ofText "13"),
      ("sec-websocket-key", Bytes.ofText "dGhlIHNhbXBsZSBub25jZQ==")]
  return .ofTarget "GET" (← readTarget d v) (headers ++ (← readBearer v)) [] true

def liveMetrics (s : LiveServer) : List (String × Value) :=
  serviceMetrics s.api.service ++ hubMetrics s.api.hub.counters ++ outcomeMetrics s.outcomes

def answerBody (d : HttpDesk) (r : HttpRequest) (a : HttpAnswer) : Value :=
  match a.body with
  | .empty => if a.status = 200 && r.path == "/metrics".toList then obj [] else .null
  | .json v => sorted v
  | .error e => obj [("code", str e.code), ("message", str (cut e.message))]
  | .text => str "<text>"
  | .exposition => obj (if d.showsMetrics then liveMetrics d.server else [])
  | .socket _ => .null

def answerValue (d : HttpDesk) (r : HttpRequest) (a : HttpAnswer) : Value :=
  obj ([("status", nat a.status), ("body", answerBody d r a)] ++
    (a.allow.map fun s => ("allow", str s)).toList)

/-- The identifier in the body of an answer. -/
def answeredId? (a : HttpAnswer) : Option Uuid :=
  match a.body with
  | .json v => (v.member? "id").bind asUuid
  | _ => none

def runRequest (d : HttpDesk) (v : Value) : Got (HttpDesk × Value) := do
  let r ← readRequest d v
  let (a, server) := d.server.request r
  let d := { d with server := server }
  let answered := match member? v "as", answeredId? a with
    | some (.string name), some id => putName d.answered name id
    | _, _ => d.answered
  return ({ d with answered := answered }, answerValue d r a)

/-- The client of a socket goes away. -/
def dropSocket (d : HttpDesk) (name : String) : HttpDesk :=
  match named? d.sockets name with
  | some id =>
    { d with
      server := (d.server.post id .lost).2
      sockets := d.sockets.filter fun e => e.1 != name }
  | none => d

def runHandshake (d : HttpDesk) (v : Value) : Got (HttpDesk × Value) := do
  let name ← get v "as" asText
  let r ← readHandshake d v
  let (a, server) := d.server.request r
  let d := { d with server := server }
  match a.body with
  | .socket id =>
    let d := dropSocket d name
    return ({ d with sockets := putName d.sockets name id },
      obj [("status", nat a.status), ("accept", .bool true)])
  | _ => return (d, answerValue d r a)

def serverFrame : ServerFrame → Value
  | .text bs => obj [("text", bytes bs)]
  | .binary bs => obj [("binary", bytes bs)]
  | .ping => obj [("ping", str "")]
  | .pong bs => obj [("pong", bytes bs)]
  | .close code reason => obj [("close", .array [nat code, str reason])]

def clientKinds : List (String × (Bytes → ClientInput)) :=
  [("text", .text), ("binary", .binary), ("ping", .ping), ("pong", .pong), ("close", .close)]

def readClientInput (v : Value) : Got ClientInput := do
  match clientKinds.find? fun k => (member? v k.1).isSome with
  | some (name, input) => return input (← get v name asBytes)
  | none => .error "frame"

/-- The messages that wait for a connection, and its end if it has been told to end. -/
def readWaiting (id : Uuid) : Nat → Hub → List Value × Hub
  | 0, h => ([], h)
  | n + 1, h =>
    match h.next id with
    | (.pending, h) => ([], h)
    | (.closed, h) => ([nextMessage .closed], h)
    | (m, h) =>
      let (ms, h) := readWaiting id n h
      (nextMessage m :: ms, h)

def dropHeld (d : HttpDesk) (name : String) : HttpDesk :=
  match named? d.held name with
  | some id =>
    { d with
      server := d.server.onHub fun h => h.unregister id
      held := d.held.filter fun e => e.1 != name }
  | none => d

def runRegister (d : HttpDesk) (v : Value) : Got (HttpDesk × Value) := do
  let name ← get v "as" asText
  let (r, server) := d.server.register ⟨← get v "user" asUuid⟩ (← texts v "rooms")
  let d := { d with server := server }
  match r with
  | .ok c =>
    let d := dropHeld d name
    return ({ d with held := putName d.held name c.id }, ok .null)
  | .error e => return (d, hubFailure e)

def noSocket : Value := str "<none>"

/-- Faults of the grants come beside those of the service. -/
def disturbServer (s : LiveServer) (v : Value) : Got (Option LiveServer) := do
  match member? v "on" with
  | some (.string "permissions") =>
    let times ← getD v "times" asNat 1
    return some { s with api := { s.api with permissionFaults := times } }
  | _ =>
    return (← disturb s.api.service v).map fun service => { s with api := { s.api with service := service } }

def runHttpStep (d : HttpDesk) (v : Value) : Got (HttpDesk × Value) := do
  let quiet (server : LiveServer) : Got (HttpDesk × Value) := .ok ({ d with server := server }, .null)
  match ← get v "do" asText with
  | "request" => runRequest d v
  | "relay" =>
    let (r, server) := d.server.relayBatch
    return ({ d with server := server }, result batchFailure batchReport r)
  | "dispatch" =>
    let (n, server) := d.server.dispatch (← get v "raw" asBytes)
    return ({ d with server := server }, nat n)
  | "hub_register" => runRegister d v
  | "hub_next" =>
    match named? d.held (← get v "as" asText) with
    | some id =>
      let hub := d.server.api.hub
      let (ms, hub) := readWaiting id (hub.waiting id + 1) hub
      return ({ d with server := d.server.onHub fun _ => hub }, .array ms)
    | none => return (d, noSocket)
  | "hub_drop" => return (dropHeld d (← get v "as" asText), .null)
  | "ws_connect" => runHandshake d v
  | "ws_send" =>
    match named? d.sockets (← get v "as" asText) with
    | some id =>
      let (written, server) := d.server.post id (← readClientInput v)
      return ({ d with server := server }, .bool written)
    | none => return (d, noSocket)
  | "ws_recv" =>
    match named? d.sockets (← get v "as" asText) with
    | some id =>
      let (frames, ended, server) := d.server.collect id
      return ({ d with server := server },
        .array (frames.map serverFrame ++ if ended then [str "<end>"] else []))
    | none => return (d, noSocket)
  | "ws_drop" => return (dropSocket d (← get v "as" asText), .null)
  | "advance" => quiet (d.server.advance (← get v "ms" asNat))
  | "shutdown" => quiet d.server.shutdown
  | "begin_shutdown" => quiet d.server.beginShutdown
  | s =>
    match ← disturbServer d.server v with
    | some server => quiet server
    | none => .error ("step " ++ s)

def readTiming (v : Value) : Got HubTiming := do
  let hub := (member? v "hub").getD (.object [])
  return ⟨← getD hub "capacity" asNat 16, ← getD hub "ping_ms" asNat HubTiming.standard.pingMs,
    ← getD hub "pong_ms" asNat HubTiming.standard.pongMs⟩

def readServer (v : Value) : Got LiveServer := do
  let wall ← wallClock
  let timing ← readTiming v
  let api : ApiServer :=
    ⟨← get v "secret" asText, wall.unixSeconds, ← readService v, ← readGrants v, 0,
      .ofCapacity timing.capacity, .empty⟩
  return .start api timing (← getD v "batch_size" asNat 50) wall

def runHttp (v : Value) : Got Value := do
  let start : HttpDesk := ⟨← readServer v, ← flag v "metrics", [], [], []⟩
  let (shown, d) ← steps (fun d w => do
    let (d, r) ← runHttpStep d w
    let d := if ← settles w then { d with server := d.server.settle } else d
    let s := d.server.api
    let rows := s.service.db.outbox.records
    return (d, obj [("r", r), ("connections", nat s.hub.count),
      ("rows", nat s.service.db.repository.size), ("outbox", nat rows.length),
      ("unsent", nat (rows.countP fun r => r.isPending))])) start (← listOf v "steps" .ok)
  let left := d.held.foldl (fun s e => s.onHub fun h => h.unregister e.2) d.server
  return obj [("metrics", obj (liveMetrics left)), ("steps", .array shown)]

end Workboard.Scenario
