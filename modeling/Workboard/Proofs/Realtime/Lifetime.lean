import Workboard.Proofs.Realtime.Isolation

/-!
A connection ends once. It may be closed, dropped, cut off as too slow or ended by a shutdown of the hub; whatever
comes first, the others change nothing more, and it does not come back.
-/

namespace Workboard

theorem HubCall.registered_append (front back : List HubCall) :
    registered (front ++ back) = registered front ++ registered back := by
  rw [registered, events, List.filterMap_append]
  exact List.filterMap_append

namespace Hub

variable {h g k : Hub} {filter : RoomFilter} {id : Uuid}

theorem not_mem_unregister (h : Hub) (id : Uuid) : id ∉ (h.unregister id).members := by
  by_cases member : id ∈ h.members
  · rw [(unregister_of_mem member).2.2.2]
    simp
  · rwa [unregister_of_not_mem member]

theorem unregister_unregister (h : Hub) (id : Uuid) : (h.unregister id).unregister id = h.unregister id :=
  unregister_of_not_mem (not_mem_unregister h id)

/-- One hub comes from another: only those that come now are new members, if the members changed, their number was
written down, and no task has started or ended. -/
structure Follows (coming : List Uuid) (h g : Hub) : Prop where
  running : g.running = h.running
  stops : h.shuttingDown = true → g.shuttingDown = true
  members : ∀ id ∈ g.members, id ∈ h.members ∨ id ∈ coming
  noted : g.counters.connections = some g.count ∨
    g.members = h.members ∧ g.counters.connections = h.counters.connections

section Follows

variable {coming later : List Uuid}

theorem Follows.quiet (running : g.running = h.running) (stays : g.shuttingDown = h.shuttingDown)
    (members : g.members = h.members) (noted : g.counters.connections = h.counters.connections) :
    Follows coming h g :=
  ⟨running, fun stops => stays.trans stops, fun _ member => .inl (members ▸ member), .inr ⟨members, noted⟩⟩

theorem Follows.trans (first : Follows coming h g) (rest : Follows later g k) :
    Follows (coming ++ later) h k := by
  refine ⟨rest.running.trans first.running, fun stops => rest.stops (first.stops stops), fun id member => ?_, ?_⟩
  · rcases rest.members id member with old | new
    · rcases first.members id old with old | new
      · exact .inl old
      · exact .inr (List.mem_append_left _ new)
    · exact .inr (List.mem_append_right _ new)
  · rcases rest.noted with noted | ⟨members, same⟩
    · exact .inl noted
    · rcases first.noted with noted | ⟨members', same'⟩
      · left
        rw [same, noted, count, count, members]
      · exact .inr ⟨members.trans members', same.trans same'⟩

theorem follows_unregister (h : Hub) (id : Uuid) : Follows [] h (h.unregister id) := by
  by_cases member : id ∈ h.members
  · rw [unregister, if_pos (List.contains_iff_mem.mpr member)]
    exact ⟨rfl, fun stops => stops, fun other still => .inl (List.mem_filter.mp still).1, .inl rfl⟩
  · rw [unregister_of_not_mem member]
    exact .quiet rfl rfl rfl rfl

theorem follows_register (h : Hub) (id : Uuid) (user : UserId) (rooms : List String) :
    Follows [id] h (h.register id user rooms).2 := by
  unfold register
  split
  · exact .quiet rfl rfl rfl rfl
  · split
    · exact .quiet rfl rfl rfl rfl
    · exact ⟨rfl, fun stops => stops, fun _ member => List.mem_append.mp member, .inl rfl⟩

theorem follows_next (h : Hub) (id : Uuid) : Follows [] h (h.next id).2 := by
  unfold next
  split
  · exact .quiet rfl rfl rfl rfl
  · split <;> exact .quiet rfl rfl rfl rfl

theorem follows_pushTo (h : Hub) (raw : Bytes) (c : Connection) : Follows [] h (h.pushTo raw c).2 := by
  unfold pushTo
  rcases c.queue.push raw with ⟨outcome, queue⟩
  cases outcome with
  | queued | droppedOldest | closed => exact .quiet rfl rfl rfl rfl
  | overflowed =>
    let pushed := h.modify c.id fun c => { c with queue := queue }
    have counted : Follows [] h pushed.noteDrop.noteSlow := .quiet rfl rfl rfl rfl
    exact counted.trans (follows_unregister _ c.id)

theorem follows_pushAll (raw : Bytes) (cs : List Connection) (h : Hub) :
    Follows [] h (pushAll raw cs h).2 := by
  induction cs generalizing h with
  | nil => exact .quiet rfl rfl rfl rfl
  | cons c cs ih => exact (follows_pushTo h raw c).trans (ih _)

theorem follows_dispatchBy (h : Hub) (order : ServingOrder) (filter : RoomFilter) (raw : Bytes) :
    Follows [] h (h.dispatchBy order filter raw).2 := by
  unfold dispatchBy
  split
  · exact .quiet rfl rfl rfl rfl
  · exact follows_pushAll raw _ h

theorem follows_afterCall (filter : RoomFilter) (h : Hub) (call : HubCall) :
    Follows (HubCall.registered [call]) h (h.afterCall filter call) := by
  cases call with
  | shutdown => exact ⟨rfl, fun _ => rfl, fun _ member => .inl member, .inr ⟨rfl, rfl⟩⟩
  | event e =>
    cases e with
    | register id user rooms => exact follows_register h id user rooms
    | dispatch raw order => exact follows_dispatchBy h order filter raw
    | next id => exact follows_next h id
    | close id | drop id => exact follows_unregister h id

theorem follows_runCalls (filter : RoomFilter) (h : Hub) (calls : List HubCall) :
    Follows (HubCall.registered calls) h (h.runCalls filter calls) := by
  induction calls generalizing h with
  | nil => exact .quiet rfl rfl rfl rfl
  | cons call calls ih =>
    rw [← List.singleton_append, HubCall.registered_append]
    exact (follows_afterCall filter h call).trans (ih _)

end Follows

/-- A hub that is shut down: no member takes a message any more. -/
structure Stopped (h : Hub) : Prop where
  stops : h.shuttingDown = true
  shut : ∀ c ∈ h.connections, c.id ∈ h.members → c.queue.closed = true

section Stopped

theorem stopped_beginShutdown (h : Hub) : h.beginShutdown.Stopped := by
  refine ⟨rfl, fun c hc member => ?_⟩
  obtain ⟨d, -, rfl⟩ := List.mem_map.mp hc
  by_cases own : d.id ∈ h.members
  · simp [own, OutboundQueue.close]
  · simp [own, beginShutdown] at member

theorem Stopped.register (stopped : h.Stopped) (id : Uuid) (user : UserId) (rooms : List String) :
    h.register id user rooms = (.error .shuttingDown, h) := by
  rw [Hub.register, if_pos stopped.stops]

theorem isClosed_of_shuttingDown (stops : h.shuttingDown = true) (id : Uuid) : h.isClosed id = true := by
  rw [isClosed, stops, Bool.true_or]

theorem next_of_isClosed (shut : h.isClosed id = true) : h.next id = (.closed, h) := by
  rw [next, if_pos shut]

theorem pushAll_of_closed {raw : Bytes} {cs : List Connection} (shut : ∀ c ∈ cs, c.queue.closed = true) :
    pushAll raw cs h = (0, h) := by
  induction cs with
  | nil => rfl
  | cons c cs ih =>
    have refused : h.pushTo raw c = (false, h) := by
      rw [pushTo, OutboundQueue.push_of_closed (shut c List.mem_cons_self)]
    have rest : pushAll raw cs h = (0, h) := ih fun d hd => shut d (List.mem_cons_of_mem _ hd)
    simp only [pushAll, refused, rest, Bool.false_eq_true, if_false]

theorem Stopped.dispatchBy (stopped : h.Stopped) (order : ServingOrder) (filter : RoomFilter) (raw : Bytes) :
    h.dispatchBy order filter raw = (0, h) := by
  unfold Hub.dispatchBy
  split
  · rfl
  next room _ =>
    refine pushAll_of_closed fun c hc => ?_
    obtain ⟨mine, target⟩ := List.mem_filter.mp ((order.perm (h.targets room)).mem_iff.mp hc)
    exact stopped.shut c mine (List.contains_iff_mem.mp (Bool.and_eq_true_iff.mp target).1)

theorem of_mem_takers {raw : Bytes} {c : Connection} (taker : c ∈ h.takers filter raw) :
    c ∈ h.connections ∧ c.id ∈ h.members ∧ (c.queue.push raw).1.taken = true := by
  obtain ⟨hc, takes⟩ := List.mem_filter.mp taker
  simp only [Bool.and_eq_true, List.contains_iff_mem] at takes
  exact ⟨hc, takes.1.1, takes.2⟩

theorem Stopped.takers_eq_nil (stopped : h.Stopped) (filter : RoomFilter) (raw : Bytes) :
    h.takers filter raw = [] := by
  refine List.eq_nil_iff_forall_not_mem.mpr fun c taker => ?_
  obtain ⟨hc, member, taken⟩ := of_mem_takers taker
  rw [OutboundQueue.push_of_closed (stopped.shut c hc member)] at taken
  cases taken

theorem Stopped.unregister (stopped : h.Stopped) (id : Uuid) : (h.unregister id).Stopped := by
  by_cases member : id ∈ h.members
  · obtain ⟨-, stays, connections, members⟩ := unregister_of_mem member
    refine ⟨stays.trans stopped.stops, fun c hc still => ?_⟩
    rw [connections] at hc
    rw [members] at still
    obtain ⟨d, hd, rfl⟩ := List.mem_map.mp hc
    split at still
    next own =>
      simp [Connection.left, own] at still
    next other =>
      rw [if_neg other]
      exact stopped.shut d hd (List.mem_filter.mp still).1
  · rwa [unregister_of_not_mem member]

theorem Stopped.afterCall (stopped : h.Stopped) (filter : RoomFilter) (call : HubCall) :
    (h.afterCall filter call).Stopped := by
  cases call with
  | shutdown => exact stopped_beginShutdown h
  | event e =>
    cases e with
    | register id user rooms =>
      rw [Hub.afterCall, after, stopped.register]
      exact stopped
    | dispatch raw order =>
      rw [Hub.afterCall, after, stopped.dispatchBy]
      exact stopped
    | next id =>
      rw [Hub.afterCall, after, next_of_isClosed (isClosed_of_shuttingDown stopped.stops id)]
      exact stopped
    | close id | drop id => exact stopped.unregister id

theorem Stopped.runCalls (stopped : h.Stopped) (filter : RoomFilter) (calls : List HubCall) :
    (h.runCalls filter calls).Stopped := by
  induction calls generalizing h with
  | nil => exact stopped
  | cons call calls ih => exact ih (stopped.afterCall filter call)

end Stopped

/-- A run is sound as long as nothing shuts the hub down, and from then on the hub is stopped. -/
theorem Sound.runCalls (sound : h.Sound) (filter : RoomFilter) {calls : List HubCall}
    (awaits : h.Awaits (HubCall.events calls)) :
    .shutdown ∉ calls ∧ (h.runCalls filter calls).Sound ∨
      .shutdown ∈ calls ∧ (h.runCalls filter calls).Stopped := by
  induction calls generalizing h with
  | nil => exact .inl ⟨List.not_mem_nil, sound⟩
  | cons call calls ih =>
    cases call with
    | shutdown =>
      exact .inr ⟨List.mem_cons_self, (stopped_beginShutdown h).runCalls filter calls⟩
    | event e =>
      have advances := sound.advances filter awaits.head
      rcases ih advances.sound (awaits.tail advances) with ⟨never, later⟩ | ⟨once, later⟩
      · exact .inl ⟨by simp [never], later⟩
      · exact .inr ⟨List.mem_cons_of_mem _ once, later⟩

theorem Sound.isClosed_of_mem (sound : h.Sound) {c : Connection} (hc : c ∈ h.connections) :
    h.isClosed c.id = c.closed := by
  rw [isClosed, sound.stays, sound.find?_of_mem hc]
  rfl

theorem Sound.mem_iff_open (sound : h.Sound) {c : Connection} (hc : c ∈ h.connections) :
    c.id ∈ h.members ↔ c.queue.closed = false ∧ h.isClosed c.id = false := by
  rw [sound.isClosed_of_mem hc]
  constructor
  · exact fun member => (sound.open_of_mem hc member).symm
  · rintro ⟨-, stillOpen⟩
    by_contra gone
    rw [(sound.closed c hc).mpr gone] at stillOpen
    cases stillOpen

theorem Sound.isClosed_of_not_mem (sound : h.Sound) (gone : id ∉ h.members) : h.isClosed id = true := by
  rcases found : h.find? id with _ | c
  · simp [isClosed, found]
  · obtain ⟨hc, rfl⟩ := of_find? found
    rw [sound.isClosed_of_mem hc]
    exact (sound.closed c hc).mpr gone

theorem counted_runCalls (filter : RoomFilter) (capacity : Nat) (calls : List HubCall) :
    let hub := (ofCapacity capacity).runCalls filter calls
    hub.counters.connections.getD 0 = hub.count := by
  intro hub
  rcases (follows_runCalls filter (ofCapacity capacity) calls).noted with noted | ⟨members, noted⟩
  · exact congrArg (·.getD 0) noted
  · rw [show hub.counters.connections = none from noted, count, show hub.members = [] from members]
    rfl

/-- A connection ends once. In every run in which connections come under identifiers of their own, and before the
hub is shut down, the members are those whose queue is open and that were not told to end. A connection that is no
longer a member stays out: it is never again among those that take a message, its reads end, and nothing is left
to let go. The number of members that was written down is always right. Once the hub was shut down, nobody comes,
no message is taken and all reads end. -/
theorem ends_each_once (filter : RoomFilter) (capacity : Nat) (before after : List HubCall)
    (distinct : (HubCall.registered (before ++ after)).Nodup) :
    let hub := (ofCapacity capacity).runCalls filter before
    let later := hub.runCalls filter after
    (.shutdown ∉ before → ∀ c ∈ hub.connections,
      (c.id ∈ hub.members ↔ c.queue.closed = false ∧ hub.isClosed c.id = false)) ∧
    (∀ id ∈ HubCall.registered before, id ∉ hub.members →
      id ∉ later.members ∧ later.next id = (.closed, later) ∧ later.unregister id = later ∧
        ∀ raw, ∀ c ∈ later.takers filter raw, c.id ≠ id) ∧
    (∀ order raw, (later.dispatchBy order filter raw).1 = (later.takers filter raw).length) ∧
    (∀ id, (later.unregister id).unregister id = later.unregister id) ∧
    later.counters.connections.getD 0 = later.count ∧
    (∀ call, (later.afterCall filter call).members ≠ later.members →
      (later.afterCall filter call).counters.connections = some (later.afterCall filter call).count) ∧
    (.shutdown ∈ before →
      (∀ id user rooms, later.register id user rooms = (.error .shuttingDown, later)) ∧
      (∀ order raw, later.dispatchBy order filter raw = (0, later)) ∧
      ∀ id, later.next id = (.closed, later)) := by
  intro hub later
  have whole : later = (ofCapacity capacity).runCalls filter (before ++ after) := List.foldl_append.symm
  have parted := distinct
  rw [HubCall.registered_append] at parted
  obtain ⟨early, -, apart⟩ := List.nodup_append.mp parted
  have first := (sound_ofCapacity capacity).runCalls filter ⟨early, by simp [ofCapacity]⟩
  have last := (sound_ofCapacity capacity).runCalls filter ⟨distinct, by simp [ofCapacity]⟩
  rw [← whole] at last
  refine ⟨fun never c hc => ?_, fun id came gone => ?_, fun order raw => ?_, unregister_unregister later,
    whole ▸ counted_runCalls filter capacity _, fun call changed => ?_, fun once => ?_⟩
  · rcases first with ⟨-, sound⟩ | ⟨once, -⟩
    · exact sound.mem_iff_open hc
    · exact absurd once never
  · have out : id ∉ later.members := by
      intro member
      -- Only a new connection could become a member, and it would come under an identifier of its own.
      rcases (follows_runCalls filter hub after).members id member with old | new
      · exact gone old
      · exact apart id came id new rfl
    have shut : later.isClosed id = true := by
      rcases last with ⟨-, sound⟩ | ⟨-, stopped⟩
      · exact sound.isClosed_of_not_mem out
      · exact isClosed_of_shuttingDown stopped.stops id
    refine ⟨out, next_of_isClosed shut, unregister_of_not_mem out, ?_⟩
    rintro raw c taker rfl
    exact out (of_mem_takers taker).2.1
  · rcases last with ⟨-, sound⟩ | ⟨-, stopped⟩
    · exact (serves_dispatchBy sound order filter raw).1
    · rw [stopped.dispatchBy, stopped.takers_eq_nil]
      rfl
  · rcases (follows_afterCall filter later call).noted with noted | ⟨members, -⟩
    · exact noted
    · exact absurd members changed
  · have stopped : later.Stopped := by
      rcases first with ⟨never, -⟩ | ⟨-, stopped⟩
      · exact absurd once never
      · exact stopped.runCalls filter after
    exact ⟨stopped.register, fun order raw => stopped.dispatchBy order filter raw,
      fun id => next_of_isClosed (isClosed_of_shuttingDown stopped.stops id)⟩

/-- One is cut off as too slow, one is closed and dropped, and one stays. -/
def comings : List HubCall :=
  crowded.map .event ++
    [.event (.register ⟨2⟩ ⟨⟨8⟩⟩ ["milk"]), .event (.register ⟨3⟩ ⟨⟨9⟩⟩ ["tea", "milk"]),
      .event (.dispatch [1, 1] lastFirst), .event (.dispatch [1, 2] .listed), .event (.dispatch [1, 3] .listed),
      .event (.close ⟨2⟩), .event (.drop ⟨2⟩)]

def goings : List HubCall :=
  [.event (.next ⟨3⟩), .event (.dispatch [2, 4] .listed), .shutdown, .event (.close ⟨1⟩)]

theorem ends_each_once_three_connections :
    let hub := (ofCapacity 2).runCalls firstByte comings
    let later := hub.runCalls firstByte goings
    hub.members = [⟨3⟩] ∧ hub.counters.connections = some 1 ∧ later.members = [⟨3⟩] ∧
      later.next ⟨1⟩ = (.closed, later) ∧ later.unregister ⟨2⟩ = later ∧
      (later.dispatchBy lastFirst firstByte [2, 5]).1 = (later.takers firstByte [2, 5]).length := by
  intro hub later
  obtain ⟨-, out, counts, -⟩ := ends_each_once firstByte 2 comings goings (by decide)
  obtain ⟨-, ended, -⟩ := out ⟨1⟩ (by decide) (by decide)
  obtain ⟨-, -, same, -⟩ := out ⟨2⟩ (by decide) (by decide)
  exact ⟨by decide, by decide, by decide, ended, same, counts lastFirst [2, 5]⟩

end Hub

end Workboard
