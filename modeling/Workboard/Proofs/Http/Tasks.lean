import Workboard.Proofs.Http.Silence
import Workboard.Proofs.Realtime.Lifetime

/-!
A socket that is run from one moment to the next does what its two tasks can do: what it reads, writes and ticks is
one run of theirs.
-/

namespace Workboard

theorem OutboundQueue.next_pending {α : Type} {q r : OutboundQueue α} (quiet : q.next = (.pending, r)) : r = q := by
  unfold next at quiet
  split at quiet
  · cases quiet
  · split at quiet
    · exact (Prod.mk.inj quiet).2.symm
    · cases quiet

namespace Hub

variable {h g : Hub} {id : Uuid}

theorem next_pending (ids : (h.connections.map (·.id)).Nodup) (quiet : h.next id = (.pending, g)) : g = h := by
  unfold next at quiet
  split at quiet
  · cases quiet
  · split at quiet
    · cases quiet
    next c found =>
      rcases first : c.queue.next with ⟨r, queue⟩
      rw [first] at quiet
      obtain ⟨rfl, rfl⟩ := Prod.mk.inj quiet
      obtain rfl := OutboundQueue.next_pending first
      obtain ⟨hc, own⟩ := of_find? found
      refine modify_eq_self fun d hd same => ?_
      rw [List.inj_on_of_nodup_map ids hd hc (same.trans own.symm)]

theorem of_hasNext_eq_false (none : h.hasNext id = false) :
    h.isClosed id = false ∧ ∃ g, h.next id = (.pending, g) := by
  rcases taken : h.next id with ⟨m, g⟩
  rw [hasNext, taken] at none
  cases m with
  | message | closed => cases none
  | pending =>
    refine ⟨?_, g, rfl⟩
    rw [Bool.eq_false_iff]
    intro shut
    cases (next_of_isClosed shut).symm.trans taken

theorem ids_next (h : Hub) (id : Uuid) : (h.next id).2.connections.map (·.id) = h.connections.map (·.id) := by
  unfold next
  split
  · rfl
  · split
    · rfl
    · exact ids_modify fun _ => rfl

end Hub

theorem Socket.writeAll_next {s : Socket} {h g : Hub} {m : NextMessage Bytes} (n : Nat) (on : ¬ s.hasEnded = true)
    (taken : h.next s.connection = (m, g)) (some_message : m ≠ .pending) :
    s.writeAll (n + 1) h = (s.apply (s.phase.write m)).writeAll n g := by
  rw [writeAll, if_neg on, taken]
  cases m with
  | message | closed => rfl
  | pending => exact absurd rfl some_message

namespace SocketWorld

/-- The socket as its client finds it. -/
def socket (w : SocketWorld) : Socket := ⟨w.connection, w.phase, w.incoming, w.written.map (·.2)⟩

/-- Steps of the tasks at one time lead from one world to another. -/
def Runs (v w : SocketWorld) : Prop := ∃ own : List SocketEvent, (∀ e ∈ own, e.isOwn = true) ∧ v.after own = w

variable {u v w : SocketWorld} {lastSeen nextTick : Nat}

theorem Runs.refl : v.Runs v := ⟨[], nofun, rfl⟩

theorem Runs.step {e : SocketEvent} (own : e.isOwn = true) (rest : (v.act e).Runs w) : v.Runs w := by
  obtain ⟨more, others, same⟩ := rest
  exact ⟨e :: more, List.forall_mem_cons.mpr ⟨own, others⟩, same⟩

theorem Runs.trans (first : u.Runs v) (second : v.Runs w) : u.Runs w := by
  obtain ⟨more, others, rfl⟩ := first
  obtain ⟨rest, last, rfl⟩ := second
  refine ⟨more ++ rest, fun e mem => ?_, after_append u more rest⟩
  exact (List.mem_append.mp mem).elim (others e) (last e)

/-- What the reader makes of one input, with the writer's answer to it. -/
theorem runs_receive (running : v.phase = .running lastSeen nextTick) (reading : v.reader = .reading)
    (answered : v.pings = []) (stays : v.hub.isClosed v.connection = false) {i : ClientInput} {rest : List ClientInput}
    (waiting : v.incoming = i :: rest) :
    v.Runs
      { v with
        phase := (v.phase.receive v.now i).2
        written := v.written ++ (v.phase.receive v.now i).1.map (v.now, ·)
        incoming := rest
        reader := if i.endsSocket then .ended else .reading } := by
  by_cases ends : i.endsSocket = true
  · refine ⟨[.read, .join], by simp [SocketEvent.isOwn], ?_⟩
    cases i <;>
      simp_all [SocketWorld.after, act, read, join, SocketPhase.receive, ClientInput.endsSocket]
  · cases i with
    | ping bs =>
      refine ⟨[.read, .read, .write], by simp [SocketEvent.isOwn], ?_⟩
      simp_all [SocketWorld.after, act, read, write, emit, pingRoom, SocketPhase.receive, ClientInput.answers]
    | text bs | binary bs | pong bs =>
      refine ⟨[.read], by simp [SocketEvent.isOwn], ?_⟩
      simp_all [SocketWorld.after, act, read, SocketPhase.receive, ClientInput.answers]
    | close bs | lost => exact absurd rfl ends

/-- What a socket is after its task has dealt with some inputs. -/
def heard (now : Nat) (s : Socket) (inputs : List ClientInput) : Socket :=
  inputs.foldl (fun s i => s.apply (s.phase.receive now i)) s

theorem heard_ended {s : Socket} (ended : s.phase = .ended) (now : Nat) (inputs : List ClientInput) :
    heard now s inputs = s := by
  induction inputs with
  | nil => rfl
  | cons i inputs ih =>
    have same : s.apply (s.phase.receive now i) = s := by
      obtain ⟨connection, phase, incoming, outgoing⟩ := s
      subst ended
      simp [Socket.apply, SocketPhase.receive]
    rw [heard, List.foldl_cons, same]
    exact ih

theorem heard_connection (now : Nat) (s : Socket) (inputs : List ClientInput) :
    (heard now s inputs).connection = s.connection := by
  induction inputs generalizing s with
  | nil => rfl
  | cons i inputs ih => exact ih (s.apply (s.phase.receive now i))

/-- What two accounts of one socket agree on. -/
structure Agrees (s : Socket) (w : SocketWorld) : Prop where
  connection : s.connection = w.connection
  phase : s.phase = w.phase
  outgoing : s.outgoing = w.written.map (·.2)

theorem Agrees.apply {s : Socket} (agrees : Agrees s v) {r : List ServerFrame × SocketPhase} {time : Nat}
    (connection : w.connection = v.connection) (phase : w.phase = r.2)
    (written : w.written = v.written ++ r.1.map (time, ·)) : Agrees (s.apply r) w := by
  refine ⟨agrees.connection.trans connection.symm, phase.symm, ?_⟩
  rw [written, Socket.apply, agrees.outgoing, List.map_append, List.map_map]
  exact congrArg (_ ++ ·) (List.map_id' _).symm

/-- The tasks have begun. -/
def Begun (w : SocketWorld) : Prop := w.phase = .ended ∨ ∃ lastSeen nextTick, w.phase = .running lastSeen nextTick

/-- Nothing is left to read and nothing of it to answer. -/
structure Quiet (w : SocketWorld) : Prop where
  begun : w.Begun
  pings : w.pings = []
  reader : w.phase ≠ .ended → w.reader = .reading ∧ w.incoming = []

/-- What the tasks leave alone at one time. -/
structure Same (v w : SocketWorld) : Prop where
  timing : w.timing = v.timing
  now : w.now = v.now

theorem runs_heard (begun : v.Begun) (reading : v.phase ≠ .ended → v.reader = .reading) (answered : v.pings = [])
    (stays : v.hub.isClosed v.connection = false) {s : Socket} (agrees : Agrees s v) :
    ∃ w, v.Runs w ∧ Agrees (heard v.now s v.incoming) w ∧ w.Quiet ∧ w.hub = v.hub ∧ Same v w := by
  induction waiting : v.incoming generalizing v s with
  | nil => exact ⟨v, .refl, agrees, ⟨begun, answered, fun on => ⟨reading on, waiting⟩⟩, rfl, rfl, rfl⟩
  | cons i rest ih =>
    rcases begun with ended | ⟨lastSeen, nextTick, running⟩
    · refine ⟨v, .refl, ?_, ⟨.inl ended, answered, fun on => absurd ended on⟩, rfl, rfl, rfl⟩
      rwa [heard_ended (agrees.phase.trans ended)]
    · have on : v.phase ≠ .ended := by
        rw [running]
        exact nofun
      let u : SocketWorld :=
        { v with
          phase := (v.phase.receive v.now i).2
          written := v.written ++ (v.phase.receive v.now i).1.map (v.now, ·)
          incoming := rest
          reader := if i.endsSocket then .ended else .reading }
      have step : v.Runs u := runs_receive running (reading on) answered stays waiting
      have next : u.phase = if i.endsSocket then .ended else .running v.now nextTick := by
        show (v.phase.receive v.now i).2 = _
        rw [running, SocketPhase.receive]
        split <;> rfl
      have stepped : Agrees (s.apply (s.phase.receive v.now i)) u := by
        rw [agrees.phase]
        exact agrees.apply rfl rfl rfl
      have still : u.Begun := by
        rw [Begun, next]
        split
        · exact .inl rfl
        · exact .inr ⟨_, _, rfl⟩
      have goes_on : u.phase ≠ .ended → u.reader = .reading := by
        rw [next]
        show _ → (if i.endsSocket then SocketReader.ended else .reading) = .reading
        split
        · exact fun on => absurd rfl on
        · exact fun _ => rfl
      obtain ⟨w, more, agree, quiet, hub, timing, now⟩ := ih still goes_on answered stays stepped rfl
      exact ⟨w, step.trans more, agree, quiet, hub, timing, now⟩

theorem write_next (running : v.phase = .running lastSeen nextTick) (answered : v.pings = []) {m : NextMessage Bytes}
    {hub : Hub} (taken : v.hub.next v.connection = (m, hub)) (some_message : m ≠ .pending) :
    v.write = { v.emit (v.phase.write m) with hub := hub } := by
  rcases shut : v.hub.isClosed v.connection with _ | _
  · unfold write
    simp only [running, shut, answered, taken, Bool.false_eq_true, if_false]
  · obtain ⟨rfl, rfl⟩ := Prod.mk.inj ((Hub.next_of_isClosed shut).symm.trans taken)
    simp only [write, running, shut, if_true]
    rfl

/-- The writer takes what the hub has while nothing else is to be written. -/
theorem runs_writeAll (ids : (v.hub.connections.map (·.id)).Nodup) (quiet : v.Quiet) (n : Nat) {s : Socket}
    (agrees : Agrees s v) :
    ∃ w, v.Runs w ∧ Agrees (s.writeAll n v.hub).1 w ∧ (s.writeAll n v.hub).2 = w.hub ∧ w.Quiet ∧ Same v w := by
  induction n generalizing v s with
  | zero => exact ⟨v, .refl, agrees, rfl, quiet, rfl, rfl⟩
  | succ n ih =>
    rcases quiet.begun with ended | ⟨lastSeen, nextTick, running⟩
    · have finished : s.hasEnded = true := by simp [Socket.hasEnded, agrees.phase, ended]
      rw [Socket.writeAll, if_pos finished]
      exact ⟨v, .refl, agrees, rfl, quiet, rfl, rfl⟩
    · have on : ¬ s.hasEnded = true := by simp [Socket.hasEnded, agrees.phase, running]
      rcases taken : v.hub.next v.connection with ⟨m, hub⟩
      by_cases pending : m = .pending
      · subst pending
        rw [Socket.writeAll, if_neg on, agrees.connection, taken]
        exact ⟨v, .refl, agrees, Hub.next_pending ids taken, quiet, rfl, rfl⟩
      · have wrote := write_next running quiet.pings taken pending
        let u : SocketWorld := { v.emit (v.phase.write m) with hub := hub }
        have step : v.Runs u := .step (e := .write) rfl (wrote.symm ▸ .refl : v.write.Runs u)
        have next : Agrees (s.apply (s.phase.write m)) u := by
          rw [agrees.phase]
          exact agrees.apply rfl rfl rfl
        have still : u.phase = .ended ∨ u.phase = v.phase := by
          show (v.phase.write m).2 = .ended ∨ (v.phase.write m).2 = v.phase
          rw [running]
          cases m with
          | message m => exact .inr rfl
          | closed => exact .inl rfl
          | pending => exact .inr rfl
        have calm : u.Quiet := by
          refine ⟨still.imp_right fun same => ⟨_, _, same.trans running⟩, quiet.pings, fun on => quiet.reader ?_⟩
          rw [← still.resolve_left on]
          exact on
        have distinct : (u.hub.connections.map (·.id)).Nodup := by
          have kept := Hub.ids_next v.hub v.connection
          rw [taken] at kept
          exact kept ▸ ids
        obtain ⟨w, more, agree, hub, calm, timing, now⟩ := ih distinct calm next
        rw [Socket.writeAll_next n on (agrees.connection.symm ▸ taken) pending]
        exact ⟨w, step.trans more, agree, hub, calm, timing, now⟩

/-- What a socket does at one time when it is run is a run of its two tasks, which leaves them with nothing to read
and nothing to answer. -/
theorem pump_runs (ids : (v.hub.connections.map (·.id)).Nodup) (running : v.phase = .running lastSeen nextTick)
    (reading : v.reader = .reading) (answered : v.pings = []) (stays : v.hub.isClosed v.connection = false) :
    ∃ w, v.Runs w ∧ Agrees (v.socket.pump v.timing v.now v.hub).1 w ∧
      (v.socket.pump v.timing v.now v.hub).2 = (v.socket.pump v.timing v.now v.hub).1.release w.hub ∧ w.Quiet ∧
      Same v w := by
  have on : ¬ v.socket.hasEnded = true := by simp [Socket.hasEnded, socket, running]
  have untracked : v.socket.track v.hub = v.hub := by simp [Socket.track, socket, running]
  have started : v.socket.phase.start v.timing v.now = v.socket.phase := by simp [socket, running, SocketPhase.start]
  obtain ⟨u, first, agree, quiet, hub, timing, now⟩ :=
    runs_heard (.inr ⟨lastSeen, nextTick, running⟩) (fun _ => reading) answered stays
      (s := { v.socket with incoming := [] }) ⟨rfl, rfl, rfl⟩
  obtain ⟨w, second, agree, taken, quiet, timing', now'⟩ :=
    runs_writeAll (hub ▸ ids) quiet (v.hub.waiting v.connection + 1) agree
  have pumped : v.socket.pump v.timing v.now v.hub =
      let r := (heard v.now { v.socket with incoming := [] } v.incoming).writeAll
        (v.hub.waiting v.connection + 1) v.hub
      (r.1, r.1.release r.2) := by
    have read : v.socket.readAll v.now = heard v.now { v.socket with incoming := [] } v.incoming := rfl
    have own : (v.socket.readAll v.now).connection = v.connection := heard_connection v.now _ v.incoming
    rw [Socket.pump, if_neg on, untracked, started, ← read]
    show (let h := v.hub; let s := v.socket.readAll v.now; _) = _
    dsimp only
    rw [own]
  rw [hub] at agree taken
  refine ⟨w, first.trans second, ?_, ?_, quiet, timing'.trans timing, now'.trans now⟩
  · rw [pumped]
    exact agree
  · rw [pumped, ← taken]

/-- Where the tasks have nothing to do, time goes on up to the next tick. -/
theorem runs_until (running : v.phase = .running lastSeen nextTick) (idle : v.isIdle = true) {time : Nat}
    (ahead : v.now ≤ time) (before : time ≤ nextTick) : v.Runs { v with now := time } := by
  have may : v.mayPass (time - v.now) = true :=
    (mayPass_iff running).mpr ⟨(isIdle_iff running).mp idle, by omega⟩
  have passed : v.act (.pass (time - v.now)) = { v with now := v.now + (time - v.now) } := if_pos may
  rw [Nat.add_sub_cancel' ahead] at passed
  exact .step (e := .pass (time - v.now)) rfl (passed.symm ▸ .refl)

theorem runs_ended (ended : v.phase = .ended) {time : Nat} (ahead : v.now ≤ time) : v.Runs { v with now := time } := by
  have may : v.mayPass (time - v.now) = true := by simp [mayPass, isIdle, ended]
  have passed : v.act (.pass (time - v.now)) = { v with now := v.now + (time - v.now) } := if_pos may
  rw [Nat.add_sub_cancel' ahead] at passed
  exact .step (e := .pass (time - v.now)) rfl (passed.symm ▸ .refl)

/-- Where the tasks have nothing else to do, the writer ticks at the time of the heartbeat. -/
theorem runs_tick (running : v.phase = .running lastSeen nextTick) (idle : v.isIdle = true) :
    v.Runs ({ v with now := nextTick }.emit (v.phase.tick v.timing)) := by
  obtain ⟨reading, nothing, answered, quiet, early⟩ := (isIdle_iff running).mp idle
  obtain ⟨stays, hub, pending⟩ := Hub.of_hasNext_eq_false quiet
  have ticked : { v with now := nextTick : SocketWorld }.write =
      { v with now := nextTick }.emit (v.phase.tick v.timing) := by
    simp [write, running, stays, answered, pending]
  exact (runs_until running idle (Nat.le_of_lt early) (Nat.le_refl _)).trans
    (.step (e := .write) rfl (ticked.symm ▸ .refl))

theorem elapse_ended {s : Socket} (ended : s.phase = .ended) (timing : HubTiming) (deadline fuel : Nat) (h : Hub) :
    s.elapse timing deadline fuel h = (s, h) := by
  cases fuel with
  | zero => rfl
  | succ fuel => simp [Socket.elapse, ended]

/-- What a socket does while time goes on without anything else is a run of its tasks up to that time. -/
theorem elapse_runs (positive : 0 < v.timing.pingMs) (running : v.phase = .running lastSeen nextTick)
    (idle : v.isIdle = true) {deadline fuel : Nat} (ahead : v.now ≤ deadline) (enough : deadline < nextTick + fuel)
    {s : Socket} (agrees : Agrees s v) :
    ∃ w, v.Runs w ∧ w.now = deadline ∧ Agrees (s.elapse v.timing deadline fuel v.hub).1 w ∧
      (s.elapse v.timing deadline fuel v.hub).2 = (s.elapse v.timing deadline fuel v.hub).1.release v.hub := by
  induction fuel generalizing v s lastSeen nextTick with
  | zero =>
    have kept : v.hub = s.release v.hub := by simp [Socket.release, Socket.hasEnded, agrees.phase, running]
    exact ⟨_, runs_until running idle ahead (Nat.le_of_lt enough), rfl,
      ⟨agrees.connection, agrees.phase, agrees.outgoing⟩, kept⟩
  | succ fuel ih =>
    have phase : s.phase = .running lastSeen nextTick := agrees.phase.trans running
    by_cases due : nextTick ≤ deadline
    · let u : SocketWorld := { v with now := nextTick }.emit (v.phase.tick v.timing)
      have ticked : v.Runs u := runs_tick running idle
      have next : Agrees (s.apply (s.phase.tick v.timing)) u := by
        rw [agrees.phase]
        exact agrees.apply rfl rfl rfl
      have goes : s.elapse v.timing deadline (fuel + 1) v.hub = (s.apply (s.phase.tick v.timing)).elapse v.timing
          deadline fuel ((s.apply (s.phase.tick v.timing)).release v.hub) := by
        simp [Socket.elapse, phase, due]
      rw [goes]
      by_cases silent : v.timing.pongMs < nextTick - lastSeen
      · have finished : u.phase = .ended := by
          show (v.phase.tick v.timing).2 = .ended
          rw [running, SocketPhase.tick, if_pos silent]
        rw [elapse_ended (next.phase.trans finished)]
        exact ⟨_, ticked.trans (runs_ended finished due), rfl, ⟨next.connection, next.phase, next.outgoing⟩, rfl⟩
      · have still : u.phase = .running lastSeen (nextTick + v.timing.pingMs) := by
          show (v.phase.tick v.timing).2 = _
          rw [running, SocketPhase.tick, if_neg silent]
        have kept : (s.apply (s.phase.tick v.timing)).release v.hub = v.hub := by
          simp [Socket.release, Socket.hasEnded, next.phase, still]
        obtain ⟨reading, nothing, answered, quiet, -⟩ := (isIdle_iff running).mp idle
        have calm : u.isIdle = true :=
          (isIdle_iff still).mpr ⟨reading, nothing, answered, quiet, Nat.lt_add_of_pos_right positive⟩
        obtain ⟨w, more, time, agree, hub⟩ := ih (v := u) positive still calm due (by omega) next
        rw [kept]
        exact ⟨w, ticked.trans more, time, agree, hub⟩
    · have early : deadline < nextTick := Nat.lt_of_not_le due
      have kept : v.hub = s.release v.hub := by simp [Socket.release, Socket.hasEnded, agrees.phase, running]
      have stays : s.elapse v.timing deadline (fuel + 1) v.hub = (s, v.hub) := by simp [Socket.elapse, phase, due]
      rw [stays]
      exact ⟨_, runs_until running idle ahead (Nat.le_of_lt early), rfl,
        ⟨agrees.connection, agrees.phase, agrees.outgoing⟩, kept⟩

end SocketWorld

end Workboard
