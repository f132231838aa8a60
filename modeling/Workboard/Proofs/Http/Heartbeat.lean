import Workboard.Http.Heartbeat

/-!
The heartbeat of a socket ends exactly the clients that are silent for too long. It tells at multiples of its period
only, and however much else there is to write, it misses none of them.
-/

namespace Workboard

theorem ServerFrame.ofMessage_plain (m : Bytes) :
    ServerFrame.ofMessage m ≠ .ping ∧ ServerFrame.ofMessage m ≠ .heartbeatTimeout := by
  unfold ServerFrame.ofMessage
  split <;> exact ⟨nofun, nofun⟩

namespace SocketWorld

/-- The frames that the heartbeat does not write. -/
def Plain (frames : List ServerFrame) : Prop := ∀ f ∈ frames, f ≠ .ping ∧ f ≠ .heartbeatTimeout

/-- What a step leaves as it is, and what it writes. -/
structure Adds (frames : List ServerFrame) (v w : SocketWorld) : Prop where
  timing : w.timing = v.timing
  start : w.start = v.start
  written : w.written = v.written ++ frames.map (v.now, ·)

/-- What a step of a socket's tasks or of others does to the heartbeat. -/
inductive Moves (v : SocketWorld) : SocketWorld → Prop
  | arrives (i : ClientInput) : Moves v (v.arrive i)
  | refuses {i : ClientInput} {rest : List ClientInput} (waiting : v.incoming = i :: rest) :
      Moves v { v with incoming := rest, reader := .ended }
  | hears {w : SocketWorld} {frames : List ServerFrame} {i : ClientInput} {rest : List ClientInput}
      {lastSeen nextTick : Nat} (running : v.phase = .running lastSeen nextTick) (waiting : v.incoming = i :: rest)
      (present : i ≠ .lost) (plain : Plain frames) (adds : Adds frames v w)
      (phase : w.phase = .running v.now nextTick) (now : w.now = v.now) (arrived : w.arrived = v.arrived)
      (incoming : w.incoming = rest) : Moves v w
  /-- Nothing that concerns the heartbeat. -/
  | aside {w : SocketWorld} {frames : List ServerFrame} (plain : Plain frames) (adds : Adds frames v w)
      (phase : w.phase = v.phase) (now : w.now = v.now) (arrived : w.arrived = v.arrived)
      (incoming : w.incoming = v.incoming)
      (reader : v.reader = .ended → w.reader = .ended) (broken : w.broken = v.broken) : Moves v w
  | ends {w : SocketWorld} {frames : List ServerFrame} (plain : Plain frames) (adds : Adds frames v w)
      (phase : w.phase = .ended) (now : w.now = v.now) (arrived : w.arrived = v.arrived) (cause : w.EndedOtherwise) :
      Moves v w
  | expires {lastSeen nextTick : Nat} (running : v.phase = .running lastSeen nextTick) (due : nextTick ≤ v.now)
      (silent : v.timing.pongMs < nextTick - lastSeen) : Moves v (v.emit ([.heartbeatTimeout], .ended))
  | asks {lastSeen nextTick : Nat} (running : v.phase = .running lastSeen nextTick) (due : nextTick ≤ v.now)
      (heard : nextTick - lastSeen ≤ v.timing.pongMs) :
      Moves v (v.emit ([.ping], .running lastSeen (nextTick + v.timing.pingMs)))
  | passes {time : Nat} (may : v.mayPass time = true) : Moves v { v with now := v.now + time }

variable {v w : SocketWorld} {frames : List ServerFrame} {lastSeen nextTick : Nat}

theorem plain_nil : Plain [] := fun _ none => absurd none List.not_mem_nil

theorem plain_pong (bs : Bytes) : Plain [.pong bs] := by
  intro f mem
  rw [List.mem_singleton.mp mem]
  exact ⟨nofun, nofun⟩

theorem plain_message (m : Bytes) : Plain [.ofMessage m] := by
  intro f mem
  rw [List.mem_singleton.mp mem]
  exact ServerFrame.ofMessage_plain m

theorem adds_nil : Adds [] v v := ⟨rfl, rfl, (List.append_nil _).symm⟩

theorem Moves.stays : Moves v v := .aside plain_nil adds_nil rfl rfl rfl rfl id rfl

theorem moves_read (v : SocketWorld) : v.Moves v.read := by
  unfold read
  split
  next lastSeen nextTick running _ =>
    split
    · exact .stays
    next bs rest waiting =>
      exact .hears running waiting nofun plain_nil ⟨rfl, rfl, (List.append_nil _).symm⟩ rfl rfl rfl rfl
    next i rest _ waiting =>
      split
      · exact .refuses waiting
      next going =>
        have present : i ≠ .lost := by
          rintro rfl
          exact going rfl
        split
        next bs _ => exact .hears running waiting present (plain_pong bs) ⟨rfl, rfl, rfl⟩ rfl rfl rfl rfl
        · exact .hears running waiting present plain_nil ⟨rfl, rfl, (List.append_nil _).symm⟩ rfl rfl rfl rfl
  next bs _ reader =>
    split
    · exact .aside plain_nil ⟨rfl, rfl, (List.append_nil _).symm⟩ rfl rfl rfl rfl (by simp [reader]) rfl
    · exact .stays
  · exact .stays

theorem moves_close (running : v.phase = .running lastSeen nextTick) (hub : Hub) :
    v.Moves { v.emit (v.phase.write .closed) with hub := hub } := by
  have plain : Plain [.closedByServer] := by
    intro f mem
    rw [List.mem_singleton.mp mem]
    decide
  have wrote : v.phase.write .closed = ([.closedByServer], .ended) := by rw [running, SocketPhase.write]
  rw [wrote]
  refine .ends plain ⟨rfl, rfl, rfl⟩ rfl rfl rfl (.inr (.inr ⟨v.now, ?_⟩))
  exact List.mem_append_right _ List.mem_cons_self

theorem moves_write (v : SocketWorld) : v.Moves v.write := by
  unfold write
  split
  next lastSeen nextTick running =>
    split
    · exact moves_close running v.hub
    · split
      next bs rest _ => exact .aside (plain_pong bs) ⟨rfl, rfl, rfl⟩ rfl rfl rfl rfl id rfl
      · split
        · split
          next due =>
            rw [running, SocketPhase.tick]
            split
            next silent => exact .expires running due silent
            next heard => exact .asks running due (Nat.le_of_not_lt heard)
          · exact .stays
        next m hub other _ =>
          cases m with
          | message m =>
            have wrote : v.phase.write (.message m) = ([.ofMessage m], v.phase) := by rw [running, SocketPhase.write]
            rw [wrote]
            exact .aside (plain_message m) ⟨rfl, rfl, rfl⟩ rfl rfl rfl rfl id rfl
          | closed => exact moves_close running hub
          | pending => exact absurd rfl other
  · exact .stays

theorem moves_act (v : SocketWorld) (e : SocketEvent) : v.Moves (v.act e) := by
  cases e with
  | arrive i => exact .arrives i
  | others change => exact .aside plain_nil ⟨rfl, rfl, (List.append_nil _).symm⟩ rfl rfl rfl rfl id rfl
  | lose => exact .ends plain_nil ⟨rfl, rfl, (List.append_nil _).symm⟩ rfl rfl rfl (.inr (.inl rfl))
  | read => exact moves_read v
  | write => exact moves_write v
  | join =>
    show v.Moves v.join
    unfold join
    split
    next finished => exact .ends plain_nil ⟨rfl, rfl, (List.append_nil _).symm⟩ rfl rfl rfl (.inl finished)
    · exact .stays
  | pass time =>
    show v.Moves (if v.mayPass time then { v with now := v.now + time } else v)
    split
    next may => exact .passes may
    · exact .stays

theorem Adds.timedOutAt (adds : Adds frames v w) (plain : Plain frames) (time : Nat) :
    w.TimedOutAt time ↔ v.TimedOutAt time := by
  rw [TimedOutAt, TimedOutAt, adds.written, List.mem_append]
  refine or_iff_left fun new => ?_
  obtain ⟨f, mem, same⟩ := List.mem_map.mp new
  exact (plain f mem).2 (congrArg Prod.snd same)

theorem Adds.pingTimes (adds : Adds frames v w) (plain : Plain frames) : w.pingTimes = v.pingTimes := by
  have none : (frames.map (v.now, ·)).filterMap pingTime? = [] := by
    rw [List.filterMap_eq_nil_iff]
    intro entry new
    obtain ⟨f, mem, rfl⟩ := List.mem_map.mp new
    exact if_neg (plain f mem).1
  rw [SocketWorld.pingTimes, adds.written, List.filterMap_append, none, List.append_nil]
  rfl

/-- When the client was last known to be there, as far as anyone can tell: at the start, or when a frame came. -/
def signs (v : SocketWorld) : List Nat := v.start :: v.arrived

/-- A socket that runs. -/
structure Alive (v : SocketWorld) (lastSeen nextTick : Nat) : Prop where
  seen : lastSeen ∈ v.signs
  /-- Frames of an earlier time have been read. -/
  read : ∀ f ∈ v.arrived, f ≤ lastSeen ∨ f = v.now ∧ (v.incoming ≠ [] ∨ v.reader = .ended)
  fresh : ∀ i ∈ v.incoming, i ≠ .lost → v.now ∈ v.arrived
  due : v.now ≤ nextTick
  next : nextTick = v.start + (v.pingTimes.length + 1) * v.timing.pingMs
  recent : ∃ f ∈ v.signs, nextTick ≤ f + v.timing.pongMs + v.timing.pingMs

/-- A socket whose heartbeat has ended it at a time. -/
structure Expired (v : SocketWorld) (time : Nat) : Prop where
  past : time ≤ v.now
  later : v.start < time
  next : time = v.start + (v.pingTimes.length + 1) * v.timing.pingMs
  silent : ∀ f ∈ v.signs, f < time → f + v.timing.pongMs < time
  recent : ∃ f ∈ v.signs, time ≤ f + v.timing.pongMs + v.timing.pingMs

structure Sound (v : SocketWorld) : Prop where
  positive : 0 < v.timing.pingMs
  begun : v.start ≤ v.now
  past : ∀ f ∈ v.arrived, v.start ≤ f ∧ f ≤ v.now
  alive : ∀ lastSeen nextTick, v.phase = .running lastSeen nextTick → v.Alive lastSeen nextTick
  finished : (∀ lastSeen nextTick, v.phase ≠ .running lastSeen nextTick) →
    v.phase = .ended ∧ (v.EndedOtherwise ∨ ∃ time, v.TimedOutAt time)
  expired : ∀ time, v.TimedOutAt time → v.phase = .ended ∧ v.Expired time
  pings : v.pingTimes = ticks v.start v.timing.pingMs v.pingTimes.length

theorem sound_begin {timing : HubTiming} (positive : 0 < timing.pingMs) (connection : Uuid) (hub : Hub)
    (start : Nat) : (begin timing connection hub start).Sound := by
  have phase : (begin timing connection hub start).phase = .running start (start + timing.pingMs) :=
    if_neg (Nat.pos_iff_ne_zero.mp positive)
  refine ⟨positive, Nat.le_refl start, nofun, ?_, ?_, nofun, rfl⟩
  · intro lastSeen nextTick running
    obtain ⟨rfl, rfl⟩ := SocketPhase.running.inj (phase.symm.trans running)
    have first : start + timing.pingMs = start + (0 + 1) * timing.pingMs := by omega
    exact ⟨List.mem_cons_self, nofun, nofun, Nat.le_add_right _ _, first, start, List.mem_cons_self, by
      show start + timing.pingMs ≤ start + timing.pongMs + timing.pingMs
      omega⟩
  · exact fun idle => absurd phase (idle _ _)

/-- What does not depend on the writer alone: a later moment of a socket whose heartbeat has not moved. -/
theorem Expired.later_on {time : Nat} (expired : v.Expired time) (timing : w.timing = v.timing)
    (start : w.start = v.start) (now : v.now ≤ w.now) (pings : w.pingTimes = v.pingTimes)
    (arrived : w.arrived = v.arrived ∨ w.arrived = v.arrived ++ [v.now]) : w.Expired time := by
  have signs : ∀ f ∈ v.signs, f ∈ w.signs := by
    intro f mem
    rcases arrived with same | more
    · rwa [SocketWorld.signs, start, same]
    · rw [SocketWorld.signs, start, more, ← List.cons_append]
      exact List.mem_append_left _ mem
  obtain ⟨f, sign, recent⟩ := expired.recent
  refine ⟨Nat.le_trans expired.past now, start ▸ expired.later, ?_, ?_, f, signs f sign, ?_⟩
  · rw [start, timing, pings]
    exact expired.next
  · intro f mem before
    rw [timing]
    rcases arrived with same | more
    · rw [SocketWorld.signs, start, same] at mem
      exact expired.silent f mem before
    · rw [SocketWorld.signs, start, more, ← List.cons_append, List.mem_append] at mem
      rcases mem with old | new
      · exact expired.silent f old before
      · have past := expired.past
        rw [List.mem_singleton.mp new] at before
        omega
  · rw [timing]
    exact recent

theorem EndedOtherwise.later_on (ended : v.EndedOtherwise) (adds : Adds frames v w)
    (reader : v.reader = .ended → w.reader = .ended) (broken : v.broken = true → w.broken = true) :
    w.EndedOtherwise := by
  rcases ended with left | lost | ⟨time, closed⟩
  · exact .inl (reader left)
  · exact .inr (.inl (broken lost))
  · refine .inr (.inr ⟨time, ?_⟩)
    rw [adds.written]
    exact List.mem_append_left _ closed

/-- All but the phase, after a step that leaves the heartbeat alone. -/
theorem Sound.later_on (sound : v.Sound) (plain : Plain frames) (adds : Adds frames v w) (now : v.now ≤ w.now)
    (arrived : w.arrived = v.arrived ∨ w.arrived = v.arrived ++ [v.now])
    (ended : v.phase = .ended → w.phase = .ended)
    (alive : ∀ lastSeen nextTick, w.phase = .running lastSeen nextTick → w.Alive lastSeen nextTick)
    (finished : (∀ lastSeen nextTick, w.phase ≠ .running lastSeen nextTick) →
      w.phase = .ended ∧ (w.EndedOtherwise ∨ ∃ time, w.TimedOutAt time)) : w.Sound := by
  have pings := adds.pingTimes plain
  refine ⟨adds.timing ▸ sound.positive, adds.start ▸ Nat.le_trans sound.begun now, ?_, alive, finished, ?_, ?_⟩
  · intro f mem
    rw [adds.start]
    rcases arrived with same | more
    · obtain ⟨after, before⟩ := sound.past f (same ▸ mem)
      exact ⟨after, Nat.le_trans before now⟩
    · rw [more, List.mem_append] at mem
      rcases mem with old | new
      · obtain ⟨after, before⟩ := sound.past f old
        exact ⟨after, Nat.le_trans before now⟩
      · rw [List.mem_singleton.mp new]
        exact ⟨sound.begun, now⟩
  · intro time out
    obtain ⟨gone, expired⟩ := sound.expired time ((adds.timedOutAt plain time).mp out)
    exact ⟨ended gone, expired.later_on adds.timing adds.start now pings arrived⟩
  · rw [pings, adds.start, adds.timing]
    exact sound.pings

/-- The causes of an end remain. -/
theorem Sound.finished_later (sound : v.Sound) (plain : Plain frames) (adds : Adds frames v w)
    (phase : w.phase = v.phase) (reader : v.reader = .ended → w.reader = .ended) (broken : w.broken = v.broken)
    (idle : ∀ lastSeen nextTick, w.phase ≠ .running lastSeen nextTick) :
    w.phase = .ended ∧ (w.EndedOtherwise ∨ ∃ time, w.TimedOutAt time) := by
  rw [phase] at idle ⊢
  obtain ⟨ended, cause⟩ := sound.finished idle
  refine ⟨ended, cause.imp (fun other => ?_) fun ⟨time, out⟩ => ⟨time, (adds.timedOutAt plain time).mpr out⟩⟩
  exact other.later_on adds reader fun lost => broken.trans lost

theorem Sound.arrive (sound : v.Sound) (i : ClientInput) : (v.arrive i).Sound := by
  have adds : Adds [] v (v.arrive i) := ⟨rfl, rfl, (List.append_nil _).symm⟩
  have more : (v.arrive i).arrived = v.arrived ∨ (v.arrive i).arrived = v.arrived ++ [v.now] := by
    rw [SocketWorld.arrive]
    split
    · exact .inl rfl
    · exact .inr rfl
  have kept : ∀ f ∈ v.signs, f ∈ (v.arrive i).signs := by
    intro f mem
    rcases more with same | more
    · rwa [SocketWorld.signs, same]
    · rw [SocketWorld.signs, more, ← List.cons_append]
      exact List.mem_append_left _ mem
  refine sound.later_on plain_nil adds (Nat.le_refl _) more id ?_
    (sound.finished_later plain_nil adds rfl id rfl)
  intro lastSeen nextTick running
  obtain ⟨seen, read, fresh, due, next, f, sign, recent⟩ := sound.alive lastSeen nextTick running
  have filled : (v.arrive i).incoming ≠ [] := List.append_ne_nil_of_right_ne_nil _ (List.cons_ne_nil _ _)
  refine ⟨kept _ seen, ?_, ?_, due, next, f, kept f sign, recent⟩
  · intro g mem
    rcases more with same | more
    · exact (read g (same ▸ mem)).imp_right fun ⟨present, _⟩ => ⟨present, .inl filled⟩
    · rw [more, List.mem_append] at mem
      rcases mem with old | new
      · exact (read g old).imp_right fun ⟨present, _⟩ => ⟨present, .inl filled⟩
      · exact .inr ⟨List.mem_singleton.mp new, .inl filled⟩
  · intro j mem present
    rcases List.mem_append.mp mem with old | new
    · have before := fresh j old present
      rcases more with same | more
      · rwa [same]
      · rw [more]
        exact List.mem_append_left _ before
    · rw [List.mem_singleton.mp new] at present
      rw [SocketWorld.arrive]
      simp [present]

theorem Sound.aside (sound : v.Sound) (plain : Plain frames) (adds : Adds frames v w) (phase : w.phase = v.phase)
    (now : w.now = v.now) (arrived : w.arrived = v.arrived) (incoming : w.incoming = v.incoming)
    (reader : v.reader = .ended → w.reader = .ended) (broken : w.broken = v.broken) : w.Sound := by
  have signs : w.signs = v.signs := by rw [SocketWorld.signs, adds.start, arrived, SocketWorld.signs]
  refine sound.later_on plain adds (Nat.le_of_eq now.symm) (.inl arrived) (phase.trans ·) ?_
    (sound.finished_later plain adds phase reader broken)
  intro lastSeen nextTick running
  obtain ⟨seen, read, fresh, due, next, recent⟩ := sound.alive lastSeen nextTick (phase.symm.trans running)
  refine ⟨signs ▸ seen, ?_, ?_, now ▸ due, ?_, ?_⟩
  · rw [arrived, now, incoming]
    exact fun f mem => (read f mem).imp_right fun ⟨present, cause⟩ => ⟨present, cause.imp_right reader⟩
  · rw [arrived, now, incoming]
    exact fresh
  · rw [adds.start, adds.timing, adds.pingTimes plain]
    exact next
  · rw [signs, adds.timing]
    exact recent

theorem Sound.refuse (sound : v.Sound) {i : ClientInput} {rest : List ClientInput}
    (waiting : v.incoming = i :: rest) : { v with incoming := rest, reader := .ended : SocketWorld }.Sound := by
  have adds : Adds [] v { v with incoming := rest, reader := .ended } := ⟨rfl, rfl, (List.append_nil _).symm⟩
  refine sound.later_on plain_nil adds (Nat.le_refl _) (.inl rfl) id ?_
    (sound.finished_later plain_nil adds rfl (fun _ => rfl) rfl)
  intro lastSeen nextTick running
  obtain ⟨seen, read, fresh, due, next, recent⟩ := sound.alive lastSeen nextTick running
  refine ⟨seen, ?_, ?_, due, next, recent⟩
  · exact fun f mem => (read f mem).imp_right fun ⟨present, _⟩ => ⟨present, .inr rfl⟩
  · exact fun j mem => fresh j (waiting ▸ List.mem_cons_of_mem i mem)

theorem Sound.hear (sound : v.Sound) {i : ClientInput} {rest : List ClientInput}
    (running : v.phase = .running lastSeen nextTick) (waiting : v.incoming = i :: rest) (present : i ≠ .lost)
    (plain : Plain frames) (adds : Adds frames v w) (phase : w.phase = .running v.now nextTick) (now : w.now = v.now)
    (arrived : w.arrived = v.arrived) (incoming : w.incoming = rest) : w.Sound := by
  have signs : w.signs = v.signs := by rw [SocketWorld.signs, adds.start, arrived, SocketWorld.signs]
  obtain ⟨-, -, fresh, due, next, recent⟩ := sound.alive lastSeen nextTick running
  refine sound.later_on plain adds (Nat.le_of_eq now.symm) (.inl arrived) ?_ ?_ fun idle => absurd phase (idle _ _)
  · intro ended
    rw [running] at ended
    cases ended
  · intro seen tick still
    obtain ⟨rfl, rfl⟩ := SocketPhase.running.inj (phase.symm.trans still)
    refine ⟨?_, ?_, ?_, now ▸ due, ?_, ?_⟩
    · rw [signs]
      exact List.mem_cons_of_mem _ (fresh i (waiting ▸ List.mem_cons_self) present)
    · rw [arrived]
      exact fun f mem => .inl (sound.past f mem).2
    · rw [arrived, now, incoming]
      exact fun j mem => fresh j (waiting ▸ List.mem_cons_of_mem i mem)
    · rw [adds.start, adds.timing, adds.pingTimes plain]
      exact next
    · rw [signs, adds.timing]
      exact recent

theorem Sound.end (sound : v.Sound) (plain : Plain frames) (adds : Adds frames v w) (phase : w.phase = .ended)
    (now : w.now = v.now) (arrived : w.arrived = v.arrived) (cause : w.EndedOtherwise) : w.Sound := by
  refine sound.later_on plain adds (Nat.le_of_eq now.symm) (.inl arrived) (fun _ => phase) ?_
    fun _ => ⟨phase, .inl cause⟩
  intro lastSeen nextTick running
  cases phase.symm.trans running

theorem isIdle_iff (running : v.phase = .running lastSeen nextTick) :
    v.isIdle = true ↔ v.reader = .reading ∧ v.incoming = [] ∧ v.pings = [] ∧
      v.hub.hasNext v.connection = false ∧ v.now < nextTick := by
  simp [isIdle, running, and_assoc]

theorem mayPass_iff (running : v.phase = .running lastSeen nextTick) {time : Nat} :
    v.mayPass time = true ↔ (v.reader = .reading ∧ v.incoming = [] ∧ v.pings = [] ∧
      v.hub.hasNext v.connection = false ∧ v.now < nextTick) ∧ v.now + time ≤ nextTick := by
  simp [mayPass, isIdle_iff running, running]

theorem Sound.pass (sound : v.Sound) {time : Nat} (may : v.mayPass time = true) :
    { v with now := v.now + time : SocketWorld }.Sound := by
  have adds : Adds [] v { v with now := v.now + time } := ⟨rfl, rfl, (List.append_nil _).symm⟩
  refine sound.later_on plain_nil adds (Nat.le_add_right _ _) (.inl rfl) id ?_
    (sound.finished_later plain_nil adds rfl id rfl)
  intro lastSeen nextTick running
  obtain ⟨seen, read, -, -, next, recent⟩ := sound.alive lastSeen nextTick running
  obtain ⟨⟨reading, nothing, -⟩, limit⟩ := (mayPass_iff (v := v) running).mp may
  refine ⟨seen, ?_, ?_, limit, next, recent⟩
  · intro f mem
    rcases read f mem with heard | ⟨-, some_input | ended⟩
    · exact .inl heard
    · exact absurd nothing some_input
    · rw [reading] at ended
      cases ended
  · intro j mem
    replace mem : j ∈ v.incoming := mem
    rw [nothing] at mem
    cases mem

theorem ticks_succ (start period n : Nat) :
    ticks start period (n + 1) = ticks start period n ++ [start + (n + 1) * period] := by
  rw [ticks, List.range_succ, List.map_append]
  rfl

theorem Sound.expire (sound : v.Sound) (running : v.phase = .running lastSeen nextTick) (due : nextTick ≤ v.now)
    (silent : v.timing.pongMs < nextTick - lastSeen) : (v.emit ([.heartbeatTimeout], .ended)).Sound := by
  obtain ⟨seen, read, -, due', next, recent⟩ := sound.alive lastSeen nextTick running
  have at_ : nextTick = v.now := Nat.le_antisymm due due'
  have pings : (v.emit ([.heartbeatTimeout], .ended)).pingTimes = v.pingTimes := by
    simp [SocketWorld.pingTimes, emit, pingTime?, ServerFrame.heartbeatTimeout]
  have out : ∀ time, (v.emit ([.heartbeatTimeout], .ended)).TimedOutAt time → time = nextTick := by
    intro time mem
    rcases List.mem_append.mp mem with old | new
    · have ended := (sound.expired time old).1
      cases running.symm.trans ended
    · rw [at_]
      exact congrArg Prod.fst (List.mem_singleton.mp new)
  -- frames of earlier times have been read, so the time that the writer compares with is that of the last of them
  have heard : ∀ f ∈ v.signs, f < nextTick → f ≤ lastSeen := by
    intro f mem before
    rcases List.mem_cons.mp mem with rfl | came
    · rcases List.mem_cons.mp seen with rfl | later
      · exact Nat.le_refl _
      · exact (sound.past _ later).1
    · rcases read f came with heard | ⟨present, -⟩
      · exact heard
      · omega
  refine ⟨sound.positive, sound.begun, sound.past, nofun, fun _ => ⟨rfl, .inr ⟨v.now, ?_⟩⟩, ?_, ?_⟩
  · exact List.mem_append_right _ List.mem_cons_self
  · intro time mem
    obtain rfl := out time mem
    refine ⟨rfl, due, ?_, ?_, ?_, recent⟩
    · show v.start < time
      have first : v.start ≤ lastSeen := by
        rcases List.mem_cons.mp seen with rfl | later
        · exact Nat.le_refl _
        · exact (sound.past _ later).1
      omega
    · rw [pings]
      exact next
    · intro f mem before
      have known := heard f mem before
      show f + v.timing.pongMs < time
      omega
  · rw [pings]
    exact sound.pings

theorem Sound.ask (sound : v.Sound) (running : v.phase = .running lastSeen nextTick) (due : nextTick ≤ v.now)
    (heard : nextTick - lastSeen ≤ v.timing.pongMs) :
    (v.emit ([.ping], .running lastSeen (nextTick + v.timing.pingMs))).Sound := by
  obtain ⟨seen, read, fresh, due', next, -⟩ := sound.alive lastSeen nextTick running
  have at_ : v.now = nextTick := Nat.le_antisymm due' due
  have pings : (v.emit ([.ping], .running lastSeen (nextTick + v.timing.pingMs))).pingTimes =
      v.pingTimes ++ [nextTick] := by
    simp [SocketWorld.pingTimes, emit, pingTime?, at_]
  have out : ∀ time, ¬ (v.emit ([.ping], .running lastSeen (nextTick + v.timing.pingMs))).TimedOutAt time := by
    intro time mem
    rcases List.mem_append.mp mem with old | new
    · have ended := (sound.expired time old).1
      cases running.symm.trans ended
    · cases congrArg Prod.snd (List.mem_singleton.mp new)
  have count : (v.pingTimes.length + 1 + 1) * v.timing.pingMs =
      (v.pingTimes.length + 1) * v.timing.pingMs + v.timing.pingMs := Nat.succ_mul _ _
  refine ⟨sound.positive, sound.begun, sound.past, ?_, ?_, fun time mem => absurd mem (out time), ?_⟩
  · intro seen' tick still
    obtain ⟨rfl, rfl⟩ := SocketPhase.running.inj still
    refine ⟨seen, read, fresh, ?_, ?_, lastSeen, seen, ?_⟩
    · show v.now ≤ nextTick + v.timing.pingMs
      omega
    · rw [pings, List.length_append]
      show nextTick + v.timing.pingMs = v.start + (v.pingTimes.length + 1 + 1) * v.timing.pingMs
      omega
    · show nextTick + v.timing.pingMs ≤ lastSeen + v.timing.pongMs + v.timing.pingMs
      omega
  · exact fun idle => absurd rfl (idle _ _)
  · rw [pings, List.length_append]
    show v.pingTimes ++ [nextTick] = ticks v.start v.timing.pingMs (v.pingTimes.length + 1)
    rw [ticks_succ, ← sound.pings, next]

theorem Sound.moves (sound : v.Sound) (moves : v.Moves w) : w.Sound := by
  cases moves with
  | arrives i => exact sound.arrive i
  | refuses waiting => exact sound.refuse waiting
  | hears running waiting present plain adds phase now arrived incoming =>
    exact sound.hear running waiting present plain adds phase now arrived incoming
  | aside plain adds phase now arrived incoming reader broken =>
    exact sound.aside plain adds phase now arrived incoming reader broken
  | ends plain adds phase now arrived cause => exact sound.end plain adds phase now arrived cause
  | expires running due silent => exact sound.expire running due silent
  | asks running due heard => exact sound.ask running due heard
  | passes may => exact sound.pass may

theorem Moves.constant (moves : v.Moves w) : w.timing = v.timing ∧ w.start = v.start := by
  cases moves with
  | hears _ _ _ _ adds | aside _ adds | ends _ adds => exact ⟨adds.timing, adds.start⟩
  | arrives | refuses | expires | asks | passes => exact ⟨rfl, rfl⟩

theorem Sound.after (sound : v.Sound) (events : List SocketEvent) :
    (v.after events).Sound ∧ (v.after events).timing = v.timing ∧ (v.after events).start = v.start := by
  induction events generalizing v with
  | nil => exact ⟨sound, rfl, rfl⟩
  | cons e events ih =>
    have moves := moves_act v e
    obtain ⟨timing, start⟩ := moves.constant
    obtain ⟨final, sameTiming, sameStart⟩ := ih (sound.moves moves)
    exact ⟨final, sameTiming.trans timing, sameStart.trans start⟩

end SocketWorld

end Workboard
