import Workboard.Proofs.Http.Heartbeat
import Workboard.Proofs.Realtime.Serving

/-!
Whatever there is to read and to write at a time, the tasks of a socket come to its end, so that time goes on. A
client that is silent is therefore found out, and no later than a period after its time is over.
-/

namespace Workboard

theorem OutboundQueue.length_next {α : Type} {q r : OutboundQueue α} {m : α} (taken : q.next = (.message m, r)) :
    r.items.length < q.items.length := by
  unfold next at taken
  split at taken
  · cases taken
  · split at taken
    · cases taken
    next m rest items =>
      obtain ⟨-, rfl⟩ := Prod.mk.inj taken
      simp [items]

/-- A message that is taken waits no longer. -/
theorem Hub.waiting_next {h g : Hub} {id : Uuid} {m : Bytes} (taken : h.next id = (.message m, g)) :
    g.waiting id < h.waiting id := by
  unfold Hub.next at taken
  split at taken
  · cases taken
  · split at taken
    · cases taken
    next c found =>
      rcases first : c.queue.next with ⟨r, queue⟩
      rw [first] at taken
      obtain ⟨rfl, rfl⟩ := Prod.mk.inj taken
      have same : ∀ c : Connection, ({ c with queue := queue } : Connection).id = c.id := fun _ => rfl
      have put : (h.modify id fun c => { c with queue := queue }).find? id = _ := find?_modify same id
      rw [waiting, waiting, put, found]
      simpa using OutboundQueue.length_next first

namespace SocketWorld

variable {v w : SocketWorld} {lastSeen nextTick : Nat}

/-- How much the tasks have to do before time can pass. A ping that is read makes work twice. -/
def load (w : SocketWorld) : Nat :=
  3 * w.incoming.length + (match w.reader with | .handing _ => 2 | _ => 0) + w.pings.length +
    w.hub.waiting w.connection +
    match w.phase with
    | .running _ nextTick => w.now + 1 - nextTick
    | _ => 0

/-- The step is done, and there is less to do or nothing at all. -/
def Eases (v w : SocketWorld) : Prop := w.now = v.now ∧ (w.phase = .ended ∨ w.load < v.load)

theorem eases_read_frame (running : v.phase = .running lastSeen nextTick) (reading : v.reader = .reading)
    {i : ClientInput} {rest : List ClientInput} (waiting : v.incoming = i :: rest) : v.Eases v.read := by
  have before : v.load = 3 * (rest.length + 1) + v.pings.length + v.hub.waiting v.connection +
      (v.now + 1 - nextTick) := by
    simp [load, running, reading, waiting]
  have less : v.read.now = v.now ∧ v.read.load < v.load := by
    rw [before]
    unfold read
    simp only [running, reading, waiting]
    split
    next none => cases none
    next rest' first =>
      obtain ⟨-, rfl⟩ := List.cons.inj first
      refine ⟨rfl, ?_⟩
      simp only [load]
      omega
    next j rest' _ first =>
      obtain ⟨-, rfl⟩ := List.cons.inj first
      split
      · refine ⟨rfl, ?_⟩
        simp only [load]
        omega
      · split
        · refine ⟨rfl, ?_⟩
          simp only [load, emit]
          omega
        · refine ⟨rfl, ?_⟩
          simp only [load]
          omega
  exact ⟨less.1, .inr less.2⟩

theorem eases_read_hand (running : v.phase = .running lastSeen nextTick) {bs : Bytes}
    (handing : v.reader = .handing bs) (room : v.pings.length < pingRoom) : v.Eases v.read := by
  refine ⟨?_, .inr ?_⟩ <;> simp [read, running, handing, room, load]
  omega

theorem eases_write_closed (running : v.phase = .running lastSeen nextTick)
    (shut : v.hub.isClosed v.connection = true) : v.Eases v.write := by
  refine ⟨?_, .inl ?_⟩ <;> simp [write, running, shut, emit, SocketPhase.write]

theorem eases_write_pong (running : v.phase = .running lastSeen nextTick)
    (stays : v.hub.isClosed v.connection = false) {bs : Bytes} {rest : List Bytes} (asked : v.pings = bs :: rest) :
    v.Eases v.write := by
  refine ⟨?_, .inr ?_⟩ <;> simp [write, running, stays, asked, emit, load]

theorem eases_write_next (running : v.phase = .running lastSeen nextTick)
    (stays : v.hub.isClosed v.connection = false) (answered : v.pings = []) {m : NextMessage Bytes} {hub : Hub}
    (taken : v.hub.next v.connection = (m, hub)) (some_message : m ≠ .pending) : v.Eases v.write := by
  cases m with
  | pending => exact absurd rfl some_message
  | closed => refine ⟨?_, .inl ?_⟩ <;> simp [write, running, stays, answered, taken, emit, SocketPhase.write]
  | message m =>
    have fewer := Hub.waiting_next taken
    refine ⟨?_, .inr ?_⟩
    · simp [write, running, stays, answered, taken, emit, SocketPhase.write]
    · simp only [write, running, stays, answered, taken, emit, SocketPhase.write, load]
      simp
      omega

theorem eases_write_tick (positive : 0 < v.timing.pingMs) (running : v.phase = .running lastSeen nextTick)
    (stays : v.hub.isClosed v.connection = false) (answered : v.pings = []) {hub : Hub}
    (quiet : v.hub.next v.connection = (.pending, hub)) (due : nextTick ≤ v.now) : v.Eases v.write := by
  have ticked : v.write = v.emit (v.phase.tick v.timing) := by
    simp [write, running, stays, answered, quiet, due]
  rw [ticked, running, SocketPhase.tick]
  split
  · exact ⟨rfl, .inl rfl⟩
  · refine ⟨rfl, .inr ?_⟩
    simp only [load, emit, running]
    omega

/-- Where time cannot pass, a task has something to do. -/
theorem Sound.stirs (sound : v.Sound) (running : v.phase = .running lastSeen nextTick) (busy : v.isIdle = false) :
    ∃ e : SocketEvent, e.isOwn = true ∧ v.Eases (v.act e) := by
  have work : ¬ (v.reader = .reading ∧ v.incoming = [] ∧ v.pings = [] ∧
      v.hub.hasNext v.connection = false ∧ v.now < nextTick) := by
    rw [← isIdle_iff running, busy]
    exact nofun
  rcases shut : v.hub.isClosed v.connection with _ | _
  · rcases taken : v.hub.next v.connection with ⟨m, hub⟩
    rcases asked : v.pings with _ | ⟨bs, rest⟩
    · rcases reader : v.reader with _ | bs | _
      · rcases waiting : v.incoming with _ | ⟨i, rest⟩
        · by_cases quiet : m = .pending
          · subst quiet
            have none : v.hub.hasNext v.connection = false := by rw [Hub.hasNext, taken]
            have due : nextTick ≤ v.now := Nat.le_of_not_lt fun early => work ⟨reader, waiting, asked, none, early⟩
            exact ⟨.write, rfl, eases_write_tick sound.positive running shut asked taken due⟩
          · exact ⟨.write, rfl, eases_write_next running shut asked taken quiet⟩
        · exact ⟨.read, rfl, eases_read_frame running reader waiting⟩
      · exact ⟨.read, rfl, eases_read_hand running reader (by simp [asked, pingRoom])⟩
      · refine ⟨.join, rfl, ?_⟩
        have joined : v.join = { v with phase := .ended } := if_pos reader
        show v.Eases v.join
        rw [joined]
        exact ⟨rfl, .inl rfl⟩
    · exact ⟨.write, rfl, eases_write_pong running shut asked⟩
  · exact ⟨.write, rfl, eases_write_closed running shut⟩

theorem after_append (v : SocketWorld) (first second : List SocketEvent) :
    v.after (first ++ second) = (v.after first).after second := List.foldl_append

/-- The tasks come to an end at every time. -/
theorem Sound.settles (sound : v.Sound) :
    ∃ own : List SocketEvent, (∀ e ∈ own, e.isOwn = true) ∧ (v.after own).now = v.now ∧
      (v.after own).isIdle = true := by
  -- on what is left to do at this time: each step of a task lowers it or ends the socket
  induction work : v.load using Nat.strongRecOn generalizing v with
  | ind load ih =>
    rcases idle : v.isIdle with _ | _
    · obtain ⟨lastSeen, nextTick, running⟩ : ∃ lastSeen nextTick, v.phase = .running lastSeen nextTick := by
        rcases phase : v.phase with _ | ⟨lastSeen, nextTick⟩ | _
        · simp [isIdle, phase] at idle
        · exact ⟨lastSeen, nextTick, rfl⟩
        · simp [isIdle, phase] at idle
      obtain ⟨e, own, now, ended | less⟩ := sound.stirs running idle
      · refine ⟨[e], by simpa using own, now, ?_⟩
        have finished : (v.after [e]).phase = .ended := ended
        simp [isIdle, finished]
      · obtain ⟨more, rest, later, final⟩ := ih _ (work ▸ less) (sound.moves (moves_act v e)) rfl
        exact ⟨e :: more, List.forall_mem_cons.mpr ⟨own, rest⟩, later.trans now, final⟩
    · exact ⟨[], List.forall_mem_nil _, rfl, idle⟩

/-- Time is not held up. -/
theorem Sound.reaches (sound : v.Sound) {later : Nat} (ahead : v.now ≤ later) :
    ∃ own : List SocketEvent, (∀ e ∈ own, e.isOwn = true) ∧ (v.after own).now = later := by
  induction left : later - v.now generalizing v with
  | zero => exact ⟨[], List.forall_mem_nil _, Nat.le_antisymm ahead (Nat.le_of_sub_eq_zero left)⟩
  | succ left ih =>
    obtain ⟨first, own, now, idle⟩ := sound.settles
    have settled := (sound.after first).1
    have may : (v.after first).mayPass 1 = true := by
      rcases phase : (v.after first).phase with _ | ⟨lastSeen, nextTick⟩ | _
      · simp [mayPass, idle, phase]
      · have before := ((isIdle_iff phase).mp idle).2.2.2.2
        exact (mayPass_iff phase).mpr ⟨(isIdle_iff phase).mp idle, before⟩
      · simp [mayPass, idle, phase]
    have passed : (v.after (first ++ [.pass 1])) = { v.after first with now := (v.after first).now + 1 } := by
      rw [after_append]
      exact if_pos may
    have time : (v.after (first ++ [.pass 1])).now = v.now + 1 := by rw [passed, ← now]
    obtain ⟨more, rest, final⟩ := ih (sound.after (first ++ [.pass 1])).1 (by omega) (by omega)
    refine ⟨(first ++ [.pass 1]) ++ more, ?_, by rw [after_append, final]⟩
    intro e mem
    rcases List.mem_append.mp mem with new | new
    · rcases List.mem_append.mp new with new | new
      · exact own e new
      · rw [List.mem_singleton.mp new]
        rfl
    · exact rest e new

/-- The heartbeat ends exactly the clients that are silent for too long, whatever else there is to read and to write.
It ends a socket at a multiple of its period, if since the start and since each frame before that more than the
time for an answer has passed. So a client that sends often enough is never ended by it, and one that is silent from
a time on is ended within that time and a period, unless the socket ends otherwise. Until then a ping goes out at
each multiple of the period and at no other time. Time itself can always go on. -/
theorem reaps_silent {timing : HubTiming} (positive : 0 < timing.pingMs) (connection : Uuid) (hub : Hub) (start : Nat)
    (events : List SocketEvent) :
    let w := (begin timing connection hub start).after events
    (∀ time, w.TimedOutAt time → w.phase = .ended ∧ (∃ n, time = start + (n + 1) * timing.pingMs) ∧
      start + timing.pongMs < time ∧ ∀ f ∈ w.arrived, f < time → f + timing.pongMs < time) ∧
    ((∀ time, start < time → time ≤ w.now → ∃ f ∈ start :: w.arrived, f < time ∧ time ≤ f + timing.pongMs) →
      ∀ time, ¬ w.TimedOutAt time) ∧
    (∀ silence, start ≤ silence → (∀ f ∈ w.arrived, f ≤ silence) →
      (∀ time, w.TimedOutAt time → time ≤ silence + timing.pongMs + timing.pingMs) ∧
      (silence + timing.pongMs + timing.pingMs < w.now → ¬ w.EndedOtherwise → ∃ time, w.TimedOutAt time)) ∧
    (∃ n, w.pingTimes = ticks start timing.pingMs n ∧
      (w.phase ≠ .ended → w.now ≤ start + (n + 1) * timing.pingMs) ∧
      ∀ time, w.TimedOutAt time → time = start + (n + 1) * timing.pingMs) ∧
    ∀ later, w.now ≤ later → ∃ own, (∀ e ∈ own, SocketEvent.isOwn e = true) ∧ (w.after own).now = later := by
  intro w
  obtain ⟨sound, sameTiming, sameStart⟩ := (sound_begin positive connection hub start).after events
  replace sound : w.Sound := sound
  replace sameTiming : w.timing = timing := sameTiming
  replace sameStart : w.start = start := sameStart
  have signs : w.signs = start :: w.arrived := by rw [SocketWorld.signs, sameStart]
  have expired : ∀ time, w.TimedOutAt time → w.Expired time := fun time out => (sound.expired time out).2
  have silent : ∀ time, w.TimedOutAt time → ∀ f ∈ start :: w.arrived, f < time → f + timing.pongMs < time := by
    intro time out f sign before
    have late := (expired time out).silent f (signs ▸ sign) before
    rwa [sameTiming] at late
  have after : ∀ time, w.TimedOutAt time → start < time := fun time out => sameStart ▸ (expired time out).later
  have last : ∀ silence, start ≤ silence → (∀ f ∈ w.arrived, f ≤ silence) → ∀ f ∈ w.signs, f ≤ silence := by
    intro silence begun quiet f sign
    rcases List.mem_cons.mp (signs ▸ sign) with rfl | came
    · exact begun
    · exact quiet f came
  refine ⟨?_, ?_, ?_, ⟨w.pingTimes.length, ?_, ?_, ?_⟩, fun later ahead => sound.reaches ahead⟩
  · intro time out
    refine ⟨(sound.expired time out).1, ⟨w.pingTimes.length, ?_⟩, ?_, ?_⟩
    · have next := (expired time out).next
      rwa [sameStart, sameTiming] at next
    · exact silent time out start List.mem_cons_self (after time out)
    · exact fun f came => silent time out f (List.mem_cons_of_mem _ came)
  · intro regular time out
    obtain ⟨f, sign, before, recent⟩ := regular time (after time out) (expired time out).past
    have late := silent time out f sign before
    omega
  · intro silence begun quiet
    constructor
    · intro time out
      obtain ⟨f, sign, recent⟩ := (expired time out).recent
      have before := last silence begun quiet f sign
      rw [sameTiming] at recent
      omega
    · intro finished notOtherwise
      have stopped : ∀ lastSeen nextTick, w.phase ≠ .running lastSeen nextTick := by
        intro lastSeen nextTick running
        obtain ⟨-, -, -, due, -, f, sign, recent⟩ := sound.alive lastSeen nextTick running
        have before := last silence begun quiet f sign
        rw [sameTiming] at recent
        omega
      exact (sound.finished stopped).2.resolve_left notOtherwise
  · have pings := sound.pings
    rwa [sameStart, sameTiming] at pings
  · intro alive
    obtain ⟨lastSeen, nextTick, running⟩ : ∃ lastSeen nextTick, w.phase = .running lastSeen nextTick := by
      apply Classical.byContradiction
      intro none
      exact alive (sound.finished fun lastSeen nextTick running => none ⟨lastSeen, nextTick, running⟩).1
    obtain ⟨-, -, -, due, next, -⟩ := sound.alive lastSeen nextTick running
    rw [sameStart, sameTiming] at next
    omega
  · intro time out
    have next := (expired time out).next
    rwa [sameStart, sameTiming] at next

/-- One frame, and then messages of others only. -/
theorem reaps_silent_listener :
    let hub := ((Hub.ofCapacity 4).register ⟨1⟩ ⟨⟨2⟩⟩ ["tea"]).2
    let message (h : Hub) : Hub := (h.pushAll [0x7B, 0x7D] (h.targets "tea")).2
    let w := (begin ⟨4, 10, 25⟩ ⟨1⟩ hub 100).after
      [.pass 7, .arrive (.ping [0x61]), .read, .read, .others message, .write, .write, .pass 3, .others message, .write,
        .write, .pass 10, .write, .pass 10, .write, .others message, .write, .pass 10, .others message, .write, .write]
    w.arrived = [107] ∧ w.TimedOutAt 140 ∧ w.phase = .ended ∧ w.pingTimes = [110, 120, 130] ∧
      (∀ time, w.TimedOutAt time → time ≤ 107 + 25 + 10) ∧ ∃ own, (w.after own).now = 1000 := by
  intro hub message w
  have out : w.TimedOutAt 140 := by
    show (140, ServerFrame.heartbeatTimeout) ∈ w.written
    decide +kernel
  have positive : 0 < (⟨4, 10, 25⟩ : HubTiming).pingMs := by decide
  obtain ⟨expired, -, silent, -, goes⟩ :=
    reaps_silent positive ⟨1⟩ hub 100
      [.pass 7, .arrive (.ping [0x61]), .read, .read, .others message, .write, .write, .pass 3, .others message, .write,
        .write, .pass 10, .write, .pass 10, .write, .others message, .write, .pass 10, .others message, .write, .write]
  have arrived : w.arrived = [107] := by decide +kernel
  have now : w.now = 140 := by decide +kernel
  obtain ⟨own, -, later⟩ := goes 1000 (by
    show w.now ≤ 1000
    omega)
  refine ⟨arrived, out, (expired 140 out).1, by decide +kernel, ?_, own, later⟩
  refine (silent 107 (by decide) fun f came => ?_).1
  replace came : f ∈ w.arrived := came
  rw [arrived] at came
  exact Nat.le_of_eq (List.mem_singleton.mp came)

end SocketWorld

end Workboard
