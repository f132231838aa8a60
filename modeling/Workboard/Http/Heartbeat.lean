import Workboard.Http.Socket

/-!
The two tasks of a socket in time. One reads what the client sends, the other writes; of all that it could write it
prefers the end of the connection to the answer to a ping, that to a message, and any message to the heartbeat.
Writing takes no time, and time passes only while neither task can go on.
-/

namespace Workboard

/-- What the task that reads is at. -/
inductive SocketReader where
  | reading
  /-- It has read a ping and waits until the writer can take it. -/
  | handing (ping : Bytes)
  | ended
  deriving DecidableEq

structure SocketWorld where
  timing : HubTiming
  connection : Uuid
  start : Nat
  now : Nat
  phase : SocketPhase
  reader : SocketReader
  /-- What the writer has yet to answer. -/
  pings : List Bytes
  /-- What came from the client and has not been read. -/
  incoming : List ClientInput
  hub : Hub
  /-- When the frames of the client came. -/
  arrived : List Nat
  /-- What was written, and when. -/
  written : List (Nat × ServerFrame)
  broken : Bool

inductive SocketEvent where
  | arrive (i : ClientInput)
  /-- Something happens to the hub. -/
  | others (change : Hub → Hub)
  /-- A write fails, or the task is given up. -/
  | lose
  | read
  | write
  /-- The socket is let go because its reader has ended. -/
  | join
  | pass (time : Nat)

/-- What happens by itself, without anybody else. -/
def SocketEvent.isOwn : SocketEvent → Bool
  | .read | .write | .join | .pass _ => true
  | _ => false

namespace SocketWorld

/-- How many pings the writer may have yet to answer. -/
def pingRoom : Nat := 32

/-- The tasks of a socket have just started. -/
def begin (timing : HubTiming) (connection : Uuid) (hub : Hub) (start : Nat) : SocketWorld :=
  ⟨timing, connection, start, start, SocketPhase.accepted.start timing start, .reading, [], [], hub, [], [], false⟩

def emit (w : SocketWorld) (r : List ServerFrame × SocketPhase) : SocketWorld :=
  { w with phase := r.2, written := w.written ++ r.1.map (w.now, ·) }

/-- What ends the socket without being a frame leaves no trace of its time. -/
def arrive (w : SocketWorld) (i : ClientInput) : SocketWorld :=
  { w with
    incoming := w.incoming ++ [i]
    arrived := if i = .lost then w.arrived else w.arrived ++ [w.now] }

/-- The next step of the task that reads. The layer that reads frames answers a ping at once. -/
def read (w : SocketWorld) : SocketWorld :=
  match w.phase, w.reader with
  | .running _ nextTick, .reading =>
    match w.incoming with
    | [] => w
    | .close _ :: rest => { w with phase := .running w.now nextTick, incoming := rest, reader := .ended }
    | i :: rest =>
      if i.endsSocket then { w with incoming := rest, reader := .ended }
      else
        match i with
        | .ping bs =>
          { w.emit ([.pong bs], .running w.now nextTick) with incoming := rest, reader := .handing bs }
        | _ => { w with phase := .running w.now nextTick, incoming := rest }
  | .running _ _, .handing bs =>
    if w.pings.length < pingRoom then { w with pings := w.pings ++ [bs], reader := .reading } else w
  | _, _ => w

/-- The next step of the task that writes. -/
def write (w : SocketWorld) : SocketWorld :=
  match w.phase with
  | .running _ nextTick =>
    if w.hub.isClosed w.connection then w.emit (w.phase.write .closed)
    else
      match w.pings with
      | bs :: rest => { w.emit ([.pong bs], w.phase) with pings := rest }
      | [] =>
        match w.hub.next w.connection with
        | (.pending, _) => if nextTick ≤ w.now then w.emit (w.phase.tick w.timing) else w
        | (m, hub) => { w.emit (w.phase.write m) with hub := hub }
  | _ => w

def join (w : SocketWorld) : SocketWorld := if w.reader = .ended then { w with phase := .ended } else w

/-- Neither task can go on before the next tick. -/
def isIdle (w : SocketWorld) : Bool :=
  match w.phase with
  | .running _ nextTick =>
    w.reader == .reading && w.incoming.isEmpty && w.pings.isEmpty && !w.hub.hasNext w.connection &&
      decide (w.now < nextTick)
  | _ => true

/-- A tick is never passed over. -/
def mayPass (w : SocketWorld) (time : Nat) : Bool :=
  w.isIdle &&
    match w.phase with
    | .running _ nextTick => decide (w.now + time ≤ nextTick)
    | _ => true

def act (w : SocketWorld) : SocketEvent → SocketWorld
  | .arrive i => w.arrive i
  | .others change => { w with hub := change w.hub }
  | .lose => { w with phase := .ended, broken := true }
  | .read => w.read
  | .write => w.write
  | .join => w.join
  | .pass time => if w.mayPass time then { w with now := w.now + time } else w

def after (w : SocketWorld) (events : List SocketEvent) : SocketWorld := events.foldl act w

def TimedOutAt (w : SocketWorld) (time : Nat) : Prop := (time, ServerFrame.heartbeatTimeout) ∈ w.written

/-- The client has left, the connection broke, or the server let it go. -/
def EndedOtherwise (w : SocketWorld) : Prop :=
  w.reader = .ended ∨ w.broken = true ∨ ∃ time, (time, ServerFrame.closedByServer) ∈ w.written

/-- It has ended although nobody ended it. -/
def Crashed (w : SocketWorld) : Prop := w.phase = .ended ∧ ¬ w.EndedOtherwise ∧ ∀ time, ¬ w.TimedOutAt time

def pingTime? (entry : Nat × ServerFrame) : Option Nat := if entry.2 = .ping then some entry.1 else none

def pingTimes (w : SocketWorld) : List Nat := w.written.filterMap pingTime?

/-- The first `n` multiples of a period after a start. -/
def ticks (start period n : Nat) : List Nat := (List.range n).map fun k => start + (k + 1) * period

end SocketWorld

end Workboard
