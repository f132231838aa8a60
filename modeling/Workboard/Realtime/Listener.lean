import Workboard.Broker.Redis
import Workboard.Config.Basic
import Workboard.KeyValue.Address
import Workboard.Realtime.Hub
import Workboard.Time.Span

/-!
The listener subscribes the hub to channels, and subscribes again whenever the subscription ends or
fails. It stops when it is cancelled or the hub shuts down. After each failure in a row it
waits longer, up to a limit.
-/

namespace Workboard

structure Backoff where
  base : Span
  limit : Span

namespace Backoff

/-- After this many doublings the time stays. -/
def maxDoublings : UInt32 := 20

def standard : Backoff := ⟨.ofMillis 500, .ofMillis 30000⟩

/-- How often the time is doubled for the `attempt`-th failure in a row; the first one counts as 1. -/
def doublings (attempt : UInt32) : UInt32 := min (if attempt = 0 then 0 else attempt - 1) maxDoublings

/-- The wait after the `attempt`-th failure in a row; none if its factor cannot be calculated. -/
def delayAt? (b : Backoff) (attempt : UInt32) : Option Span :=
  (Width.shifted? 1 (doublings attempt)).map fun factor => (b.base.times factor).shorter b.limit

end Backoff

open KeyValue

inductive SubscriptionEnd where
  /-- The messages came to their end. -/
  | closed
  | failed
  deriving DecidableEq

structure ChannelListener where
  channels : List String
  backoff : Backoff

namespace ChannelListener

/-- The global channel and those of the scopes, each once. -/
def channelsOf (redis : RedisConfig) (hub : HubConfig) : List String :=
  hub.scopeChannels.foldl (fun channels scope =>
    let channel := RedisBroker.channelOf redis.channelPrefix scope
    if channels.contains channel then channels else channels ++ [channel]) [hub.globalChannel]

def badAddress : RedisError := .config "创建 Redis 客户端失败: the address is not a server's"

def ofConfig (redis : RedisConfig) (hub : HubConfig) : Except RedisError ChannelListener :=
  match ServerAddress.ofUrl? redis.url with
  | some _ => .ok ⟨channelsOf redis hub, .standard⟩
  | none => .error badAddress

/-- One attempt to subscribe. The messages of a subscription reach the hub until they come to their end. -/
def attempt (l : ChannelListener) (raws : List Bytes) (s : Server) (h : Hub) : SubscriptionEnd × Server × Hub :=
  match s.reply (.subscribe l.channels) with
  | (.error _, s) => (.failed, s, h)
  | (_, s) => (.closed, s, h.dispatchAll RoomFilter.standard raws)

end ChannelListener

inductive ListenerPhase where
  | running
  | stopped
  /-- A calculation did not fit. -/
  | panicked
  deriving DecidableEq

/-- The listener's loop. -/
structure ListenerRun where
  failures : UInt32
  /-- The waits that were begun, oldest first. -/
  waits : List Span
  phase : ListenerPhase
  deriving DecidableEq

/-- What one turn of the loop meets. -/
structure ListenerTurn where
  /-- Whether the listener is cancelled or the hub shuts down before the attempt. -/
  stopped : Bool
  ended : SubscriptionEnd
  /-- Whether the listener is cancelled or the hub shuts down when the attempt has ended. -/
  stoppedMeanwhile : Bool
  /-- Whether the listener is cancelled before the wait is over. -/
  cancelled : Bool

namespace ListenerRun

def start : ListenerRun := ⟨0, [], .running⟩

def enter (stopped : Bool) (r : ListenerRun) : ListenerRun :=
  if r.phase = .running ∧ stopped then { r with phase := .stopped } else r

/-- Failures in a row after an attempt, unless they are too many to be counted. -/
def failuresAfter? (r : ListenerRun) : SubscriptionEnd → Option UInt32
  | .closed => some 0
  | .failed => Width.next? r.failures

/-- The wait after an attempt with the failures in a row that it left, of which none count as one. -/
def wait? (r : ListenerRun) (b : Backoff) (ended : SubscriptionEnd) : Option (UInt32 × Span) := do
  let failures ← r.failuresAfter? ended
  some (failures, ← b.delayAt? (max failures 1))

/-- What follows an attempt. Only where messages came to their end it is asked whether the listener goes on. -/
def leave (b : Backoff) (ended : SubscriptionEnd) (stopped cancelled : Bool) (r : ListenerRun) : ListenerRun :=
  if ended = .closed ∧ stopped then { r with phase := .stopped }
  else
    match r.wait? b ended with
    | none => { r with phase := .panicked }
    | some (failures, delay) => ⟨failures, r.waits ++ [delay], if cancelled then .stopped else .running⟩

def turn (b : Backoff) (t : ListenerTurn) (r : ListenerRun) : ListenerRun :=
  let r := r.enter t.stopped
  if r.phase = .running then r.leave b t.ended t.stoppedMeanwhile t.cancelled else r

def run (b : Backoff) (turns : List ListenerTurn) : ListenerRun := turns.foldl (fun r t => r.turn b t) start

end ListenerRun

namespace ChannelListener

/-- Turns with the messages of one subscription, at most as many as `tries` says. Nobody cancels the listener between
them. -/
def subscribe (l : ChannelListener) (cancelled : Bool) (raws : List Bytes) :
    Nat → ListenerRun → Server → Hub → ListenerRun × Server × Hub
  | 0, r, s, h => (r, s, h)
  | tries + 1, r, s, h =>
    let r := r.enter (cancelled || h.shuttingDown)
    if r.phase = .running then
      let (ended, s, h) := l.attempt raws s h
      let r := r.leave l.backoff ended h.shuttingDown false
      match ended with
      | .failed => l.subscribe cancelled raws tries r s h
      | .closed => (r, s, h)
    else (r, s, h)

/-- One subscription after another: the messages of each reach the hub, and `collect` takes what they
left there. -/
def rounds {α : Type} (l : ChannelListener) (cancelled : Bool) (collect : Hub → α × Hub) :
    List (List Bytes) → ListenerRun → Server → Hub → List α × Server × Hub
  | [], _, s, h => ([], s, h)
  | raws :: more, r, s, h =>
    let (r, s, h) := l.subscribe cancelled raws (s.faults.remaining "SUBSCRIBE" + 1) r s h
    if r.phase = .running then
      let (a, h) := collect h
      let (as, s, h) := l.rounds cancelled collect more r s h
      (a :: as, s, h)
    else ([], s, h)

end ChannelListener

end Workboard
