import Workboard.Realtime.History

/-!
Upgrades to a socket while the hub is shut down. An upgrade asks the hub, becomes a member and then starts a task
that the hub waits for; a shutdown tells the members to end and waits for the tasks. Each takes its steps one at a
time, and steps of the others may come between them.
-/

namespace Workboard

namespace Hub

/-- What the hub has against a new connection. -/
def refusal? (h : Hub) (rooms : List String) : Option HubError :=
  if h.shuttingDown then some .shuttingDown
  else if rooms.isEmpty then some .noRooms
  else none

/-- Puts a connection among the members, whatever has happened since the hub was asked. -/
def takeIn (h : Hub) (id : Uuid) (user : UserId) (rooms : List String) : Hub :=
  let c : Connection := ⟨id, user, distinct rooms, .ofCapacity h.capacity, false⟩
  noteCount { h with connections := h.connections ++ [c], members := h.members ++ [id] }

/-- From now on nobody is taken in and every connection is told to end. -/
def cancel (h : Hub) : Hub := { h with shuttingDown := true }

def closeQueue (h : Hub) (id : Uuid) : Hub := h.modify id fun c => { c with queue := c.queue.close }

end Hub

inductive UpgradePhase where
  /-- The user and the rooms are known. -/
  | authorized
  | refused (e : HubError)
  /-- The hub was asked and had nothing against it. -/
  | admitted
  /-- The connection is a member, and its task has not started. -/
  | registered
  | running
  /-- The connection was let go, and its task is about to end. -/
  | leaving
  | ended
  deriving DecidableEq

namespace UpgradePhase

/-- It has asked the hub, which does not know of its task yet. -/
def isPending : UpgradePhase → Bool
  | .admitted | .registered => true
  | _ => false

/-- The hub waits for its task. -/
def isTracked : UpgradePhase → Bool
  | .running | .leaving => true
  | _ => false

/-- It has not asked the hub yet, or is done with it. -/
def isOutside (p : UpgradePhase) : Bool := !p.isPending && !p.isTracked

/-- Its connection may be a member. -/
def isRegistered : UpgradePhase → Bool
  | .registered | .running => true
  | _ => false

end UpgradePhase

structure Upgrade where
  id : Uuid
  user : UserId
  rooms : List String
  phase : UpgradePhase

namespace Upgrade

/-- The next step of an upgrade. A task may end at any time. -/
def step (u : Upgrade) (h : Hub) : UpgradePhase × Hub :=
  match u.phase with
  | .authorized =>
    match h.refusal? u.rooms with
    | some e => (.refused e, h)
    | none => (.admitted, h)
  | .admitted => (.registered, h.takeIn u.id u.user u.rooms)
  | .registered => (.running, h.track)
  | .running => (.leaving, h.unregister u.id)
  | .leaving => (.ended, h.untrack)
  | .refused e => (.refused e, h)
  | .ended => (.ended, h)

/-- The client is gone before the task has started. -/
def giveUp (u : Upgrade) (h : Hub) : UpgradePhase × Hub :=
  match u.phase with
  | .registered => (.ended, h.unregister u.id)
  | phase => (phase, h)

end Upgrade

inductive ShutdownPhase where
  | notBegun
  | cancelled
  /-- Some of those that were members have yet to be told. -/
  | closing (left : List Uuid)
  | waiting
  /-- There was a moment in which no task was left. -/
  | drained
  | returned
  deriving DecidableEq

namespace ShutdownPhase

def step (p : ShutdownPhase) (h : Hub) : ShutdownPhase × Hub :=
  match p with
  | .notBegun => (.cancelled, h.cancel)
  | .cancelled => (.closing h.members, h)
  | .closing [] => (.waiting, h)
  | .closing (id :: left) => (.closing left, h.closeQueue id)
  | .waiting => (if h.hasStopped then .drained else .waiting, h)
  | .drained => (.returned, h)
  | .returned => (.returned, h)

def hasDrained : ShutdownPhase → Bool
  | .drained | .returned => true
  | _ => false

end ShutdownPhase

structure UpgradeWorld where
  hub : Hub
  /-- In the order in which they came. -/
  upgrades : List Upgrade
  shutdown : ShutdownPhase
  /-- How many tasks of others run that the hub waits for. -/
  others : Nat

inductive UpgradeEvent where
  | come (id : Uuid) (user : UserId) (rooms : List String)
  | step (upgrade : Nat)
  | giveUp (upgrade : Nat)
  /-- A dispatch reaches one of the connections that it found. -/
  | push (raw : Bytes) (id : Uuid)
  | next (id : Uuid)
  | close (id : Uuid)
  | startTask
  | endTask
  | shutdown

namespace UpgradeWorld

def ofCapacity (capacity : Nat) : UpgradeWorld := ⟨.ofCapacity capacity, [], .notBegun, 0⟩

/-- One of the upgrades does something. -/
def act (w : UpgradeWorld) (upgrade : Nat) (f : Upgrade → Hub → UpgradePhase × Hub) : UpgradeWorld :=
  match w.upgrades[upgrade]? with
  | none => w
  | some u =>
    let (phase, hub) := f u w.hub
    { w with upgrades := w.upgrades.set upgrade { u with phase := phase }, hub := hub }

def after (w : UpgradeWorld) : UpgradeEvent → UpgradeWorld
  | .come id user rooms => { w with upgrades := w.upgrades ++ [⟨id, user, rooms, .authorized⟩] }
  | .step upgrade => w.act upgrade Upgrade.step
  | .giveUp upgrade => w.act upgrade Upgrade.giveUp
  | .push raw id =>
    match w.hub.find? id with
    | none => w
    | some c => { w with hub := (w.hub.pushTo raw c).2 }
  | .next id => { w with hub := (w.hub.next id).2 }
  | .close id => { w with hub := w.hub.unregister id }
  | .startTask => { w with hub := w.hub.track, others := w.others + 1 }
  | .endTask => if w.others = 0 then w else { w with hub := w.hub.untrack, others := w.others - 1 }
  | .shutdown =>
    let (phase, hub) := w.shutdown.step w.hub
    { w with shutdown := phase, hub := hub }

def run (w : UpgradeWorld) (events : List UpgradeEvent) : UpgradeWorld := events.foldl after w

/-- An upgrade has asked the hub, which does not know of its task yet. -/
def IsPending (w : UpgradeWorld) (upgrade : Nat) : Prop :=
  ∃ u, w.upgrades[upgrade]? = some u ∧ u.phase.isPending = true

end UpgradeWorld

end Workboard
