import Workboard.Proofs.Realtime.Serving

/-!
A connection is told what a queue of its own would tell it. Whatever the other connections are and do, the
queue of a connection takes the messages of its rooms, and nothing of theirs changes it.
-/

namespace Workboard

namespace OutboundQueue

variable {α : Type}

def run (q : OutboundQueue α) (calls : List (QueueCall α)) : OutboundQueue α := calls.foldl after q

theorem answers_append (q : OutboundQueue α) (front back : List (QueueCall α)) :
    q.answers (front ++ back) = q.answers front ++ (q.run front).answers back := by
  induction front generalizing q with
  | nil => rfl
  | cons c front ih => rw [List.cons_append, answers, answers, ih, List.append_assoc]; rfl

variable {q : OutboundQueue α} {m : α}

theorem mem_items_after {call : QueueCall α} (h : m ∈ (q.after call).items) :
    m ∈ q.items ∨ call = .push m := by
  cases call with
  | push n =>
    simp only [after, push] at h
    split at h
    · exact .inl h
    · split at h
      · simpa [eq_comm] using h
      · split at h
        · simp at h
        · rcases List.mem_append.mp h with old | new
          · exact .inl (List.mem_of_mem_drop old)
          · exact .inr (by rw [List.mem_singleton.mp new])
  | next =>
    simp only [after, next] at h
    split at h
    · exact .inl h
    · split at h
      · exact .inl h
      next items => exact .inl (items ▸ List.mem_cons_of_mem _ h)
  | close => exact .inl h

theorem mem_items_of_told {call : QueueCall α} (h : .message m ∈ q.told call) : m ∈ q.items := by
  cases call with
  | next =>
    have found : q.next.1 = .message m := (List.mem_singleton.mp h).symm
    unfold next at found
    split at found
    · cases found
    · split at found
      · cases found
      next items =>
        cases found
        rw [items]
        exact List.mem_cons_self
  | _ => cases h

/-- A queue tells only what it held or was given. -/
theorem pushed_of_answers {calls : List (QueueCall α)} (h : .message m ∈ q.answers calls) :
    m ∈ q.items ∨ .push m ∈ calls := by
  induction calls generalizing q with
  | nil => cases h
  | cons call calls ih =>
    rcases List.mem_append.mp h with now | later
    · exact .inl (mem_items_of_told now)
    · rcases ih later with held | given
      · rcases mem_items_after held with old | rfl
        · exact .inl old
        · exact .inr List.mem_cons_self
      · exact .inr (List.mem_cons_of_mem _ given)

end OutboundQueue

namespace Hub

variable {h : Hub} {filter : RoomFilter} {id : Uuid} {rooms : List String} {q : OutboundQueue Bytes}

theorem mem_distinct {room : String} : room ∈ distinct rooms ↔ room ∈ rooms := by
  have more (seen : List String) : ∀ rest : List String,
      room ∈ rest.foldl (fun seen r => if seen.contains r then seen else seen ++ [r]) seen ↔
        room ∈ seen ∨ room ∈ rest := by
    intro rest
    induction rest generalizing seen with
    | nil => simp
    | cons r rest ih =>
      rw [List.foldl_cons, ih]
      by_cases known : r ∈ seen
      · simp only [List.contains_iff_mem, known, if_true, List.mem_cons]
        grind
      · simp [known, or_assoc]
  simpa [distinct] using more [] rooms

/-- Events whose connections come under identifiers of their own. -/
structure Awaits (h : Hub) (history : List HubEvent) : Prop where
  once : (HubEvent.registered history).Nodup
  fresh : ∀ id ∈ HubEvent.registered history, id ∉ h.connections.map (·.id)

/-- A connection takes a message of its queue, if one waits. -/
def advanced (c : Connection) : Connection := { c with queue := c.queue.next.2 }

theorem Sound.next_eq (sound : h.Sound) (id : Uuid) :
    h.next id = (((h.find? id).map fun c => c.queue.next.1).getD .closed, h.modify id advanced) := by
  rcases found : h.find? id with _ | c
  · have none_has : ∀ c ∈ h.connections, c.id = id → advanced c = c := fun c hc own =>
      absurd own (by simpa using List.find?_eq_none.mp found c hc)
    rw [modify_eq_self none_has]
    simp [next, isClosed, found]
  · obtain ⟨hc, own⟩ := of_find? found
    have told : h.isClosed id = c.closed := by simp [isClosed, sound.stays, found]
    by_cases shut : c.closed = true
    · have queueShut := (sound.queue c hc).mpr ((sound.closed c hc).mp shut)
      have still : ∀ d ∈ h.connections, d.id = id → advanced d = d := by
        intro d hd same
        rw [sound.eq_of_id hd hc (same.trans own.symm), advanced, OutboundQueue.next_of_closed queueShut]
      rw [modify_eq_self still, next, told, if_pos shut]
      simp [OutboundQueue.next_of_closed queueShut]
    · have one : (h.modify id fun d => { d with queue := c.queue.next.2 }) = h.modify id advanced := by
        refine modify_congr fun d hd same => ?_
        rw [sound.eq_of_id hd hc (same.trans own.symm), advanced]
      rw [← one, next, told, if_neg shut, found]
      rfl

/-- A connection as it first comes. -/
def newcomer (h : Hub) (id : Uuid) (user : UserId) (rooms : List String) : Connection :=
  ⟨id, user, distinct rooms, .ofCapacity h.capacity, false⟩

theorem Sound.register_cases (sound : h.Sound) (id : Uuid) (user : UserId) (rooms : List String) :
    rooms = [] ∧ (h.register id user rooms).2 = h ∨
      rooms ≠ [] ∧ (h.register id user rooms).2.capacity = h.capacity ∧
        (h.register id user rooms).2.shuttingDown = h.shuttingDown ∧
        (h.register id user rooms).2.connections = h.connections ++ [h.newcomer id user rooms] ∧
        (h.register id user rooms).2.members = h.members ++ [id] := by
  rw [register, if_neg (by simp [sound.stays])]
  cases rooms with
  | nil => exact .inl ⟨rfl, rfl⟩
  | cons room rooms => exact .inr ⟨by simp, rfl, rfl, rfl, rfl⟩

theorem Sound.register (sound : h.Sound) (fresh : id ∉ h.connections.map (·.id)) (user : UserId)
    (rooms : List String) : (h.register id user rooms).2.Sound := by
  obtain ⟨-, same⟩ | ⟨-, -, stays, connections, members⟩ := sound.register_cases id user rooms
  · rwa [same]
  · have others : ∀ c ∈ h.connections, c.id ≠ id := by
      rintro c hc rfl
      exact fresh (List.mem_map.mpr ⟨c, hc, rfl⟩)
    refine ⟨stays.trans sound.stays, ?_, ?_, ?_⟩
    · rw [connections, List.map_append]
      refine sound.ids.append (List.nodup_singleton _) ?_
      simpa [newcomer] using others
    all_goals
      intro c hc
      rw [connections] at hc
      rw [members]
      rcases List.mem_append.mp hc with hc | hc
    · simp [sound.closed c hc, others c hc]
    · simp [List.mem_singleton.mp hc, newcomer]
    · simp [sound.queue c hc, others c hc]
    · simp [List.mem_singleton.mp hc, newcomer, OutboundQueue.ofCapacity]

/-- What an event does to a hub is, for each connection, what it does to a queue of its own. -/
structure Advances (filter : RoomFilter) (e : HubEvent) (h g : Hub) : Prop where
  sound : g.Sound
  capacity : g.capacity = h.capacity
  connections : ∃ (f : Connection → Connection) (new : List Connection),
    g.connections = h.connections.map f ++ new ∧ (∀ c ∈ new, c.id ∈ HubEvent.registered [e]) ∧
      ∀ c ∈ h.connections, (f c).id = c.id ∧ (f c).rooms = c.rooms ∧
        (f c).queue = c.queue.run (e.concern filter c.id c.rooms)

/-- An event that is a call of the queue of one connection. -/
theorem advances_modify {e : HubEvent} {g : Hub} {f : Connection → Connection}
    {call : QueueCall Bytes} (after : g.Sound) (capacity : g.capacity = h.capacity)
    (modified : g.connections = (h.modify id f).connections)
    (concerns : ∀ other rooms, e.concern filter other rooms = if id = other then [call] else [])
    (each : ∀ c, (f c).id = c.id ∧ (f c).rooms = c.rooms ∧ (f c).queue = c.queue.after call) :
    Advances filter e h g := by
  refine ⟨after, capacity, _, [], modified.trans (List.append_nil _).symm, nofun, fun c _ => ?_⟩
  rw [concerns]
  split
  next own =>
    rw [if_pos own.symm]
    exact each c
  next other =>
    rw [if_neg (Ne.symm other)]
    exact ⟨rfl, rfl, rfl⟩

theorem Sound.queue_run_dispatch (sound : h.Sound) {c : Connection} (hc : c ∈ h.connections)
    (raw : Bytes) (order : ServingOrder) :
    (if c.id ∈ (h.audience filter raw).map (·.id) then c.served raw else c).queue =
      c.queue.run ((HubEvent.dispatch raw order).concern filter c.id c.rooms) := by
  have heard : c.id ∈ (h.audience filter raw).map (·.id) ↔
      c.id ∈ h.members ∧ (filter raw).any c.rooms.contains = true := by
    have member : h.members.contains c.id = true ↔ c.id ∈ h.members := List.contains_iff_mem
    rw [← member, ← Bool.and_eq_true_iff]
    constructor
    · intro known
      obtain ⟨d, hd, same⟩ := List.mem_map.mp known
      obtain ⟨mine, wants⟩ := List.mem_filter.mp hd
      rwa [sound.eq_of_id mine hc same] at wants
    · exact fun wants => List.mem_map.mpr ⟨c, List.mem_filter.mpr ⟨hc, wants⟩, rfl⟩
  simp only [heard, HubEvent.concern]
  by_cases room : (filter raw).any c.rooms.contains = true
  · by_cases member : c.id ∈ h.members
    · simp only [room, member, and_self, if_true]
      rfl
    · have shut := (sound.queue c hc).mpr member
      simp only [room, member, false_and, if_false, if_true]
      exact (congrArg (·.2) (OutboundQueue.push_of_closed shut raw)).symm
  · rw [if_neg fun wants => room wants.2, if_neg room]
    rfl

theorem Sound.advances (sound : h.Sound) (filter : RoomFilter) {e : HubEvent}
    (fresh : ∀ id ∈ HubEvent.registered [e], id ∉ h.connections.map (·.id)) :
    Advances filter e h (h.after filter e) := by
  have leaves (id : Uuid) : (h.unregister id).capacity = h.capacity := by
    unfold Hub.unregister
    split <;> rfl
  cases e with
  | register id user rooms =>
    have unknown : id ∉ h.connections.map (·.id) := fresh id (by simp [HubEvent.registered])
    have soundly := sound.register unknown user rooms
    obtain ⟨-, same⟩ | ⟨-, capacity, -, connections, -⟩ := sound.register_cases id user rooms
    · exact ⟨soundly, congrArg _ same, fun c => c, [], by simp [Hub.after, same], nofun,
        fun c _ => ⟨rfl, rfl, rfl⟩⟩
    · refine ⟨soundly, capacity, fun c => c, [h.newcomer id user rooms], ?_, ?_,
        fun c _ => ⟨rfl, rfl, rfl⟩⟩
      · rw [List.map_id']
        exact connections
      · simp [newcomer, HubEvent.registered]
  | dispatch raw order =>
    obtain ⟨-, serves⟩ := serves_dispatchBy sound order filter raw
    have mine : ∀ c ∈ h.audience filter raw, c ∈ h.connections := fun c hc => (List.mem_filter.mp hc).1
    refine ⟨sound.serves mine serves, serves.capacity, _, [],
      serves.connections.trans (List.append_nil _).symm, nofun, fun c hc => ?_⟩
    exact ⟨id_served c, by split <;> rfl, sound.queue_run_dispatch hc raw order⟩
  | next id =>
    rw [Hub.after, sound.next_eq]
    refine advances_modify ?_ rfl rfl (fun _ _ => rfl) fun c => ⟨rfl, rfl, rfl⟩
    exact sound.modify (fun _ => rfl) fun c => ⟨rfl, c.queue.closed_next⟩
  | close id | drop id =>
    refine advances_modify (sound.unregister id) (leaves id) (sound.connections_unregister id)
      (fun _ _ => rfl) fun c => ⟨rfl, rfl, rfl⟩

/-- A hub has a connection with these rooms, whose queue is this one. -/
def Mirrors (h : Hub) (id : Uuid) (rooms : List String) (q : OutboundQueue Bytes) : Prop :=
  ∃ c, h.find? id = some c ∧ c.rooms.contains = rooms.contains ∧ c.queue = q

theorem Mirrors.after (mirrors : h.Mirrors id rooms q) (sound : h.Sound) {e : HubEvent}
    (advances : Advances filter e h (h.after filter e)) :
    (h.after filter e).Mirrors id rooms (q.run (e.concern filter id rooms)) ∧
      h.told id e = q.answers (e.concern filter id rooms) := by
  obtain ⟨c, found, same, rfl⟩ := mirrors
  obtain ⟨hc, rfl⟩ := of_find? found
  have concern : e.concern filter c.id rooms = e.concern filter c.id c.rooms := by
    cases e with
    | dispatch raw order => rw [HubEvent.concern, HubEvent.concern, same]
    | _ => rfl
  rw [concern]
  obtain ⟨f, new, connections, -, each⟩ := advances.connections
  obtain ⟨own, stay, queue⟩ := each c hc
  refine ⟨⟨f c, ?_, stay ▸ same, queue⟩, ?_⟩
  · rw [← own]
    refine advances.sound.find?_of_mem ?_
    rw [connections]
    exact List.mem_append_left _ (List.mem_map.mpr ⟨c, hc, rfl⟩)
  · cases e with
    | next other =>
      rw [told, HubEvent.concern, sound.next_eq, found]
      split <;> rfl
    | register other user wanted => rfl
    | dispatch raw order | close other | drop other =>
      simp only [told, HubEvent.concern]
      split <;> rfl

theorem Mirrors.concern (mirrors : h.Mirrors id rooms q) (sound : h.Sound) (filter : RoomFilter)
    (e : HubEvent) :
    q.run (h.concern filter id rooms e) = q.run (e.concern filter id rooms) ∧
      q.answers (h.concern filter id rooms e) = q.answers (e.concern filter id rooms) := by
  obtain ⟨c, found, -, rfl⟩ := mirrors
  obtain ⟨hc, rfl⟩ := of_find? found
  cases e with
  | dispatch raw order =>
    by_cases member : c.id ∈ h.members
    · rw [Hub.concern, if_pos (List.contains_iff_mem.mpr member)]
      exact ⟨rfl, rfl⟩
    · have shut := (sound.queue c hc).mpr member
      rw [Hub.concern, if_neg (by simpa using member), HubEvent.concern]
      split
      · exact ⟨(congrArg (·.2) (OutboundQueue.push_of_closed shut raw)).symm, rfl⟩
      · exact ⟨rfl, rfl⟩
  | _ => exact ⟨rfl, rfl⟩

theorem registered_cons (e : HubEvent) (history : List HubEvent) :
    HubEvent.registered (e :: history) = HubEvent.registered [e] ++ HubEvent.registered history :=
  List.filterMap_append (l := [e])

theorem Awaits.head {e : HubEvent} {history : List HubEvent} (awaits : h.Awaits (e :: history)) :
    ∀ id ∈ HubEvent.registered [e], id ∉ h.connections.map (·.id) := by
  intro id hid
  refine awaits.fresh id ?_
  rw [registered_cons]
  exact List.mem_append_left _ hid

theorem Awaits.tail {e : HubEvent} {history : List HubEvent} (awaits : h.Awaits (e :: history))
    (advances : Advances filter e h (h.after filter e)) : (h.after filter e).Awaits history := by
  have once := awaits.once
  rw [registered_cons, List.nodup_append] at once
  refine ⟨once.2.1, fun id hid known => ?_⟩
  obtain ⟨f, new, connections, mine, each⟩ := advances.connections
  rw [connections, List.map_append, List.mem_append] at known
  rcases known with old | new
  · obtain ⟨c, hc, rfl⟩ := List.mem_map.mp old
    obtain ⟨d, hd, rfl⟩ := List.mem_map.mp hc
    refine awaits.fresh _ ?_ (List.mem_map.mpr ⟨d, hd, (each d hd).1.symm⟩)
    rw [registered_cons]
    exact List.mem_append_right _ hid
  · obtain ⟨c, hc, rfl⟩ := List.mem_map.mp new
    exact once.2.2 c.id (mine c hc) c.id hid rfl

theorem Sound.run (filter : RoomFilter) {front back : List HubEvent} (sound : h.Sound)
    (awaits : h.Awaits (front ++ back)) :
    (h.run filter front).Sound ∧ (h.run filter front).Awaits back ∧
      (h.run filter front).capacity = h.capacity := by
  induction front generalizing h with
  | nil => exact ⟨sound, awaits, rfl⟩
  | cons e front ih =>
    have advances := sound.advances filter awaits.head
    obtain ⟨later, rest, capacity⟩ := ih advances.sound (awaits.tail advances)
    exact ⟨later, rest, capacity.trans advances.capacity⟩

/-- What a connection is told is what its queue alone would tell. -/
theorem Mirrors.heard (mirrors : h.Mirrors id rooms q) (sound : h.Sound) {history : List HubEvent}
    (awaits : h.Awaits history) :
    heard filter id h history = q.answers (history.flatMap (HubEvent.concern filter id rooms)) ∧
      heard filter id h history = q.answers (h.callsTo filter id rooms history) := by
  induction history generalizing h q with
  | nil => exact ⟨rfl, rfl⟩
  | cons e history ih =>
    have advances := sound.advances filter awaits.head
    obtain ⟨later, told⟩ := mirrors.after sound advances
    obtain ⟨all, own⟩ := ih later advances.sound (awaits.tail advances)
    obtain ⟨run, answers⟩ := mirrors.concern sound filter e
    constructor
    · rw [Hub.heard, told, all, List.flatMap_cons, OutboundQueue.answers_append]
    · rw [Hub.heard, told, own, callsTo, OutboundQueue.answers_append, run, answers]

theorem concern_room {m : Bytes} {e : HubEvent} (h : .push m ∈ e.concern filter id rooms) :
    ∃ room ∈ rooms, filter m = some room := by
  cases e with
  | dispatch raw order =>
    simp only [HubEvent.concern] at h
    split at h
    next wants =>
      obtain rfl : m = raw := by simpa using h
      rcases found : filter m with _ | room
      · simp [found] at wants
      · exact ⟨room, by simpa [found] using wants, rfl⟩
    next => cases h
  | register other user wanted => cases h
  | next other | close other | drop other =>
    simp only [HubEvent.concern] at h
    split at h <;> simp at h

/-- A connection that comes has an empty queue and nobody else's identifier. -/
theorem run_register (filter : RoomFilter) (capacity : Nat) {before after : List HubEvent} {user : UserId}
    (some_room : rooms ≠ [])
    (distinct : (HubEvent.registered (before ++ .register id user rooms :: after)).Nodup) :
    ((ofCapacity capacity).run filter (before ++ [.register id user rooms])).Sound ∧
      ((ofCapacity capacity).run filter (before ++ [.register id user rooms])).Awaits after ∧
        ((ofCapacity capacity).run filter (before ++ [.register id user rooms])).Mirrors id rooms
          (.ofCapacity capacity) := by
  obtain ⟨sound, awaits, same⟩ :=
    (sound_ofCapacity capacity).run filter ⟨distinct, by simp [ofCapacity]⟩
  have advances := sound.advances filter awaits.head
  have split : (ofCapacity capacity).run filter (before ++ [.register id user rooms]) =
      ((ofCapacity capacity).run filter before).after filter (.register id user rooms) :=
    List.foldl_append
  rw [split]
  refine ⟨advances.sound, awaits.tail advances,
    newcomer ((ofCapacity capacity).run filter before) id user rooms, ?_, ?_, ?_⟩
  · obtain ⟨none_wanted, -⟩ | ⟨-, -, -, connections, -⟩ := sound.register_cases id user rooms
    · exact absurd none_wanted some_room
    · refine advances.sound.find?_of_mem (c := newcomer _ id user rooms) ?_
      rw [Hub.after, connections]
      exact List.mem_append_right _ List.mem_cons_self
  · funext room
    rw [Bool.eq_iff_iff, List.contains_iff_mem, List.contains_iff_mem]
    exact mem_distinct
  · rw [newcomer, same]
    rfl

/-- What a connection is told in a run of a hub. Some events come before it, and others after it came. -/
def toldIn (filter : RoomFilter) (capacity : Nat) (id : Uuid) (user : UserId) (rooms : List String)
    (before after : List HubEvent) : List (NextMessage Bytes) :=
  ((ofCapacity capacity).run filter (before ++ [.register id user rooms])).heard filter id after

/-- Rooms are isolated. In every run in which connections come under identifiers of their own, and whatever
the order in which messages are served, a connection is told what a queue alone would tell it that is given
the messages of its rooms while it is a member. So it gets no message of another room; other connections
make no difference to it; and the answer to a dispatch is how many members took the message into their
queue. -/
theorem isolates_rooms (filter : RoomFilter) (capacity : Nat) (before after : List HubEvent) (id : Uuid)
    (user : UserId) (rooms : List String) (some_room : rooms ≠ [])
    (distinct : (HubEvent.registered (before ++ .register id user rooms :: after)).Nodup) :
    let hub := (ofCapacity capacity).run filter (before ++ [.register id user rooms])
    let alone : OutboundQueue Bytes := .ofCapacity capacity
    hub.heard filter id after = alone.answers (hub.callsTo filter id rooms after) ∧
      (∀ m, .message m ∈ hub.heard filter id after → ∃ room ∈ rooms, filter m = some room) ∧
      (∀ before' user' after',
        (HubEvent.registered (before' ++ .register id user' rooms :: after')).Nodup →
        after'.flatMap (HubEvent.concern filter id rooms) =
          after.flatMap (HubEvent.concern filter id rooms) →
        toldIn filter capacity id user' rooms before' after' = hub.heard filter id after) ∧
      ∀ order raw, ((hub.run filter after).dispatchBy order filter raw).1 =
        ((hub.run filter after).takers filter raw).length := by
  intro hub alone
  obtain ⟨sound, awaits, mirrors⟩ := run_register filter capacity some_room distinct
  obtain ⟨all, own⟩ := mirrors.heard sound awaits
  refine ⟨own, ?_, ?_, ?_⟩
  · intro m told
    rw [all] at told
    rcases OutboundQueue.pushed_of_answers told with held | given
    · cases held
    · obtain ⟨e, -, he⟩ := List.mem_flatMap.mp given
      exact concern_room he
  · intro before' user' after' distinct' same
    obtain ⟨sound', awaits', mirrors'⟩ :=
      run_register filter capacity some_room distinct'
    rw [toldIn, (mirrors'.heard sound' awaits').1, same, all]
  · intro order raw
    rw [← List.append_nil after] at awaits
    exact (serves_dispatchBy (sound.run filter awaits).1 order filter raw).1

/-- The first byte of a message tells its room. -/
def firstByte : RoomFilter
  | 1 :: _ => some "tea"
  | 2 :: _ => some "milk"
  | _ => none

def lastFirst : ServingOrder := ⟨List.reverse, List.reverse_perm⟩

/-- The room has one member, which never reads. -/
def crowded : List HubEvent := [.register ⟨1⟩ ⟨⟨7⟩⟩ ["tea"], .dispatch [1, 0] lastFirst]

/-- The member that never reads is cut off while the new one is served. -/
def slowNeighbour : List HubEvent :=
  [.dispatch [1, 1] lastFirst, .dispatch [2, 2] .listed, .next ⟨2⟩, .dispatch [1, 3] .listed, .next ⟨2⟩,
    .dispatch [3] .listed, .dispatch [1, 4] lastFirst, .next ⟨2⟩]

theorem isolates_rooms_slow_neighbour :
    let hub := (ofCapacity 2).run firstByte (crowded ++ [.register ⟨2⟩ ⟨⟨8⟩⟩ ["milk", "tea", "milk"]])
    hub.heard firstByte ⟨2⟩ slowNeighbour =
        (OutboundQueue.ofCapacity 2).answers
          [.push [1, 1], .push [2, 2], .next, .push [1, 3], .next, .push [1, 4], .next] ∧
      (hub.run firstByte slowNeighbour).members = [⟨2⟩] ∧
      ((hub.run firstByte slowNeighbour).dispatchBy lastFirst firstByte [1, 5]).1 = 1 := by
  intro hub
  obtain ⟨own, -, -, count⟩ := isolates_rooms firstByte 2 crowded slowNeighbour ⟨2⟩ ⟨⟨8⟩⟩
    ["milk", "tea", "milk"] (by decide) (by decide)
  refine ⟨own, by decide, ?_⟩
  rw [count]
  decide

end Hub

end Workboard
