import Workboard.Realtime.Hub

/-!
One socket as the server runs it: messages of its connection go out, each ping is answered, and a heartbeat
tells at regular times whether the client has been silent for too long.
-/

namespace Workboard

/-- What reaches the server from a client. -/
inductive ClientInput where
  | text (bs : Bytes)
  | binary (bs : Bytes)
  | ping (bs : Bytes)
  | pong (bs : Bytes)
  | close (bs : Bytes)
  | lost
  deriving DecidableEq

/-- What a client sees of the server. -/
inductive ServerFrame where
  | text (bs : Bytes)
  | binary (bs : Bytes)
  | ping
  | pong (bs : Bytes)
  | close (code : Nat) (reason : String)
  deriving DecidableEq

namespace ClientInput

/-- The most bytes that a ping or a pong may carry. -/
def maxControl : Nat := 125

/-- Whether the server hangs up on it: the client has left, or does not keep to the rules of frames. -/
def endsSocket : ClientInput → Bool
  | .text bs => (Bytes.text? bs).isNone
  | .binary _ => false
  | .ping bs => maxControl < bs.length
  | .pong bs => maxControl < bs.length
  | .close _ => true
  | .lost => true

/-- A ping is answered once by the layer that reads frames, and once by the socket's task. -/
def answers : ClientInput → List ServerFrame
  | .ping bs => [.pong bs, .pong bs]
  | _ => []

end ClientInput

namespace ServerFrame

/-- A message that spells no text goes out as bytes. -/
def ofMessage (m : Bytes) : ServerFrame := if (Bytes.text? m).isSome then .text m else .binary m

/-- The code of an end that has its cause on the server. -/
def goingAway : Nat := 1001

def closedByServer : ServerFrame := .close goingAway "connection closed by server"

def heartbeatTimeout : ServerFrame := .close goingAway "heartbeat timeout"

end ServerFrame

/-- Where a socket is in its life. Its task starts some time after the request was accepted. -/
inductive SocketPhase where
  | accepted
  | running (lastSeen nextTick : Nat)
  | ended
  deriving DecidableEq

namespace SocketPhase

/-- The task starts; there is no heartbeat without a time between its ticks. -/
def start (timing : HubTiming) (now : Nat) : SocketPhase → SocketPhase
  | .accepted => if timing.pingMs = 0 then .ended else .running now (now + timing.pingMs)
  | p => p

/-- Takes what a client sent. Any frame shows that the client is there. -/
def receive (now : Nat) (i : ClientInput) : SocketPhase → List ServerFrame × SocketPhase
  | .running _ nextTick =>
    if i.endsSocket then ([], .ended) else (i.answers, .running now nextTick)
  | p => ([], p)

/-- Writes what a connection has for its client. -/
def write (m : NextMessage Bytes) : SocketPhase → List ServerFrame × SocketPhase
  | .running lastSeen nextTick =>
    match m with
    | .message m => ([.ofMessage m], .running lastSeen nextTick)
    | .closed => ([.closedByServer], .ended)
    | .pending => ([], .running lastSeen nextTick)
  | p => ([], p)

/-- The heartbeat at the time that it is due. -/
def tick (timing : HubTiming) : SocketPhase → List ServerFrame × SocketPhase
  | .running lastSeen nextTick =>
    if timing.pongMs < nextTick - lastSeen then ([.heartbeatTimeout], .ended)
    else ([.ping], .running lastSeen (nextTick + timing.pingMs))
  | p => ([], p)

end SocketPhase

/-- A socket with what the client sent and the server has not read, and what the server wrote and the client
has not read. -/
structure Socket where
  connection : Uuid
  phase : SocketPhase
  incoming : List ClientInput
  outgoing : List ServerFrame

namespace Socket

def ofConnection (connection : Uuid) : Socket := ⟨connection, .accepted, [], []⟩

def hasEnded (s : Socket) : Bool := s.phase = .ended

def apply (s : Socket) (r : List ServerFrame × SocketPhase) : Socket :=
  { s with phase := r.2, outgoing := s.outgoing ++ r.1 }

/-- A client cannot write to a socket that has ended. -/
def post (s : Socket) (i : ClientInput) : Bool × Socket :=
  if s.hasEnded then (false, s) else (true, { s with incoming := s.incoming ++ [i] })

/-- The frames that arrived at the client. -/
def collect (s : Socket) : List ServerFrame × Socket := (s.outgoing, { s with outgoing := [] })

def readAll (now : Nat) (s : Socket) : Socket :=
  s.incoming.foldl (fun s i => s.apply (s.phase.receive now i)) { s with incoming := [] }

/-- Writes what waits for the connection, at most so many messages. -/
def writeAll : Nat → Socket → Hub → Socket × Hub
  | 0, s, h => (s, h)
  | n + 1, s, h =>
    if s.hasEnded then (s, h)
    else
      match h.next s.connection with
      | (.pending, h) => (s, h)
      | (m, h) => writeAll n (s.apply (s.phase.write m)) h

/-- The connection of a task that has ended is let go. -/
def release (s : Socket) (h : Hub) : Hub :=
  if s.hasEnded then (h.unregister s.connection).untrack else h

/-- The hub waits for the task from its start on. -/
def track (s : Socket) (h : Hub) : Hub := if s.phase = .accepted then h.track else h

/-- Lets the task do what it can at this time. -/
def pump (timing : HubTiming) (now : Nat) (s : Socket) (h : Hub) : Socket × Hub :=
  if s.hasEnded then (s, h)
  else
    let h := s.track h
    let s := { s with phase := s.phase.start timing now }.readAll now
    let (s, h) := writeAll (h.waiting s.connection + 1) s h
    (s, s.release h)

/-- Lets the heartbeat tick until a time, at most as often as `fuel` says. -/
def elapse (timing : HubTiming) (deadline : Nat) : Nat → Socket → Hub → Socket × Hub
  | 0, s, h => (s, h)
  | fuel + 1, s, h =>
    match s.phase with
    | .running _ nextTick =>
      if nextTick ≤ deadline then
        let s := s.apply (s.phase.tick timing)
        elapse timing deadline fuel s (s.release h)
      else (s, h)
    | _ => (s, h)

end Socket

end Workboard
