import Mathlib.Data.List.Nodup
import Workboard.Realtime.History

/-!
What it does to a hub when some of its connections are served a message. Each of them is changed as if it were
alone, so the order does not matter.
-/

namespace Workboard

namespace OutboundQueue

variable {α : Type} {q : OutboundQueue α}

theorem push_of_closed (h : q.closed = true) (m : α) : q.push m = (.closed, q) := by
  rw [push, if_pos h]

theorem push_eq_closed_iff {m : α} : (q.push m).1 = .closed ↔ q.closed = true := by
  unfold push
  split
  next h => simp [h]
  next h =>
    split
    · simp [h]
    · split <;> simp [h]

theorem next_of_closed (h : q.closed = true) : q.next = (.closed, q) := by
  rw [next, if_pos h]

@[simp] theorem closed_push (q : OutboundQueue α) (m : α) :
    (q.push m).2.closed = (q.closed || decide ((q.push m).1 = .overflowed)) := by
  unfold push
  split
  next h => simp [h]
  next h =>
    split
    · simp
    · split <;> simp [h]

@[simp] theorem closed_next (q : OutboundQueue α) : q.next.2.closed = q.closed := by
  unfold next
  split
  · rfl
  · split <;> rfl

end OutboundQueue

namespace Connection

/-- A connection after it was served a message. -/
def served (raw : Bytes) (c : Connection) : Connection :=
  { c with
    queue := (c.queue.push raw).2
    closed := c.closed || decide ((c.queue.push raw).1 = .overflowed) }

/-- A connection after it left the hub. -/
def left (c : Connection) : Connection := { c with queue := c.queue.close, closed := true }

end Connection

namespace Hub

variable {h g k : Hub}

/-- A hub that is not shut down. The connections that left it are closed, and only they are. -/
structure Sound (h : Hub) : Prop where
  stays : h.shuttingDown = false
  ids : (h.connections.map (·.id)).Nodup
  closed : ∀ c ∈ h.connections, (c.closed = true ↔ c.id ∉ h.members)
  queue : ∀ c ∈ h.connections, (c.queue.closed = true ↔ c.id ∉ h.members)

theorem sound_ofCapacity (capacity : Nat) : (ofCapacity capacity).Sound :=
  ⟨rfl, .nil, nofun, nofun⟩

theorem Sound.eq_of_id (sound : h.Sound) {c d : Connection} (hc : c ∈ h.connections)
    (hd : d ∈ h.connections) (same : c.id = d.id) : c = d :=
  List.inj_on_of_nodup_map sound.ids hc hd same

theorem Sound.find?_of_mem (sound : h.Sound) {c : Connection} (hc : c ∈ h.connections) :
    h.find? c.id = some c := by
  rcases found : h.find? c.id with _ | d
  · have unlike := List.find?_eq_none.mp found c hc
    simp at unlike
  · have same : d.id = c.id := by simpa using List.find?_some found
    rw [sound.eq_of_id (List.mem_of_find?_eq_some found) hc same]

theorem Sound.open_of_mem (sound : h.Sound) {c : Connection} (hc : c ∈ h.connections)
    (member : c.id ∈ h.members) : c.closed = false ∧ c.queue.closed = false := by
  refine ⟨Bool.eq_false_iff.mpr fun closed => ?_, Bool.eq_false_iff.mpr fun closed => ?_⟩
  · exact (sound.closed c hc).mp closed member
  · exact (sound.queue c hc).mp closed member

/-- Steps change connections one by one and keep their identifiers. -/
theorem Sound.map (sound : h.Sound) {f : Connection → Connection} (same : ∀ c, (f c).id = c.id)
    (stays : g.shuttingDown = h.shuttingDown) (mapped : g.connections = h.connections.map f)
    (status : ∀ c ∈ h.connections,
      ((f c).closed = true ↔ c.id ∉ g.members) ∧ ((f c).queue.closed = true ↔ c.id ∉ g.members)) :
    g.Sound := by
  have ids : g.connections.map (·.id) = h.connections.map (·.id) := by
    rw [mapped, List.map_map]
    exact List.map_congr_left fun c _ => same c
  have each : ∀ c ∈ g.connections, ∃ d ∈ h.connections, c = f d := by
    intro c hc
    obtain ⟨d, hd, rfl⟩ := List.mem_map.mp (mapped ▸ hc)
    exact ⟨d, hd, rfl⟩
  refine ⟨stays.trans sound.stays, ids ▸ sound.ids, ?_, ?_⟩
  · intro c hc
    obtain ⟨d, hd, rfl⟩ := each c hc
    rw [same]
    exact (status d hd).1
  · intro c hc
    obtain ⟨d, hd, rfl⟩ := each c hc
    rw [same]
    exact (status d hd).2

theorem of_find? {id : Uuid} {c : Connection} (found : h.find? id = some c) :
    c ∈ h.connections ∧ c.id = id :=
  ⟨List.mem_of_find?_eq_some found, by simpa using List.find?_some found⟩

theorem find?_map {f : Connection → Connection} (same : ∀ c, (f c).id = c.id)
    (mapped : g.connections = h.connections.map f) (id : Uuid) : g.find? id = (h.find? id).map f := by
  have keeps : ((fun c : Connection => decide (c.id = id)) ∘ f) = fun c => decide (c.id = id) := by
    funext c
    simp [same]
  rw [find?, find?, mapped, List.find?_map, keeps]

section Modify

variable {id : Uuid} {f : Connection → Connection}

theorem id_modified (same : ∀ c, (f c).id = c.id) (c : Connection) :
    (if c.id = id then f c else c).id = c.id := by
  split
  · exact same c
  · rfl

theorem modify_modify {g : Connection → Connection} (same : ∀ c, (f c).id = c.id) :
    ((h.modify id f).modify id g).connections = (h.modify id (g ∘ f)).connections := by
  simp only [modify, List.map_map]
  apply List.map_congr_left
  intro c _
  by_cases own : c.id = id
  · simp [own, same]
  · simp [own]

theorem modify_congr {g : Connection → Connection}
    (agree : ∀ c ∈ h.connections, c.id = id → f c = g c) : h.modify id f = h.modify id g := by
  have mapped : (h.connections.map fun c => if c.id = id then f c else c) =
      h.connections.map fun c => if c.id = id then g c else c := by
    apply List.map_congr_left
    intro c hc
    split
    next own => exact agree c hc own
    next => rfl
  rw [modify, modify, mapped]

theorem modify_eq_self (keeps : ∀ c ∈ h.connections, c.id = id → f c = c) : h.modify id f = h := by
  rw [modify_congr (g := fun c => c) keeps]
  simp [modify]

theorem ids_modify (same : ∀ c, (f c).id = c.id) :
    (h.modify id f).connections.map (·.id) = h.connections.map (·.id) := by
  rw [modify, List.map_map]
  exact List.map_congr_left fun c _ => id_modified same c

theorem find?_modify (same : ∀ c, (f c).id = c.id) (other : Uuid) :
    (h.modify id f).find? other = if other = id then (h.find? other).map f else h.find? other := by
  rw [find?_map (g := h.modify id f) (id_modified same) rfl]
  rcases found : h.find? other with _ | c
  · simp
  · obtain rfl := (of_find? found).2
    split
    next own => simp [own]
    next other => simp [other]

theorem Sound.modify (sound : h.Sound) (same : ∀ c, (f c).id = c.id)
    (keeps : ∀ c, (f c).closed = c.closed ∧ (f c).queue.closed = c.queue.closed) :
    (h.modify id f).Sound := by
  refine sound.map (id_modified same) rfl rfl fun c hc => ?_
  split
  · rw [(keeps c).1, (keeps c).2]
    exact ⟨sound.closed c hc, sound.queue c hc⟩
  · exact ⟨sound.closed c hc, sound.queue c hc⟩

end Modify

section Unregister

variable {id : Uuid}

theorem unregister_of_mem (member : id ∈ h.members) :
    (h.unregister id).capacity = h.capacity ∧ (h.unregister id).shuttingDown = h.shuttingDown ∧
      (h.unregister id).connections = (h.modify id Connection.left).connections ∧
        (h.unregister id).members = h.members.filter fun m => m != id := by
  rw [unregister, if_pos (List.contains_iff_mem.mpr member)]
  exact ⟨rfl, rfl, rfl, rfl⟩

theorem unregister_of_not_mem (gone : id ∉ h.members) : h.unregister id = h := by
  rw [unregister, if_neg (by simpa using gone)]

/-- A connection that has left is as it was when it left. -/
theorem Sound.left_of_not_mem (sound : h.Sound) {c : Connection} (hc : c ∈ h.connections)
    (gone : c.id ∉ h.members) : c.left = c := by
  have shut := (sound.closed c hc).mpr gone
  have queueShut := (sound.queue c hc).mpr gone
  obtain ⟨id, user, rooms, ⟨capacity, items, drops, queueClosed⟩, closed⟩ := c
  obtain rfl : closed = true := shut
  obtain rfl : queueClosed = true := queueShut
  rfl

theorem Sound.connections_unregister (sound : h.Sound) (id : Uuid) :
    (h.unregister id).connections = (h.modify id Connection.left).connections := by
  by_cases member : id ∈ h.members
  · exact (unregister_of_mem member).2.2.1
  · rw [unregister_of_not_mem member,
      modify_eq_self fun c hc own => sound.left_of_not_mem hc (own ▸ member)]

theorem Sound.unregister (sound : h.Sound) (id : Uuid) : (h.unregister id).Sound := by
  by_cases member : id ∈ h.members
  · obtain ⟨-, stays, connections, members⟩ := unregister_of_mem member
    refine sound.map (id_modified (f := Connection.left) fun _ => rfl) stays connections fun c hc => ?_
    rw [members]
    by_cases own : c.id = id
    · simp [own, Connection.left, OutboundQueue.close]
    · simp [own, sound.closed c hc, sound.queue c hc]
  · rwa [unregister_of_not_mem member]

end Unregister

/-- One hub comes from another by serving a message to some of its connections. -/
structure Serves (raw : Bytes) (cs : List Connection) (h g : Hub) : Prop where
  capacity : g.capacity = h.capacity
  stays : g.shuttingDown = h.shuttingDown
  connections : g.connections =
    h.connections.map fun c => if c.id ∈ cs.map (·.id) then c.served raw else c
  members : ∀ id, id ∈ g.members ↔
    id ∈ h.members ∧ ∀ c ∈ cs, c.id = id → (c.queue.push raw).1 ≠ .overflowed

section Serve

variable {raw : Bytes} {c : Connection} {cs ds : List Connection}

theorem serves_nil (raw : Bytes) (h : Hub) : Serves raw [] h h :=
  ⟨rfl, rfl, by simp, by simp⟩

theorem id_served (c : Connection) :
    (if c.id ∈ cs.map (·.id) then c.served raw else c).id = c.id := by
  split <;> rfl

/-- Serving one and then more is serving all of them, if none of them is served twice. -/
theorem Serves.cons (first : Serves raw [c] h g) (rest : Serves raw cs g k)
    (fresh : c.id ∉ cs.map (·.id)) : Serves raw (c :: cs) h k := by
  refine ⟨rest.capacity.trans first.capacity, rest.stays.trans first.stays, ?_, ?_⟩
  · rw [rest.connections, first.connections, List.map_map]
    apply List.map_congr_left
    intro d _
    by_cases own : d.id = c.id
    · have once : (d.served raw).id ∉ cs.map (·.id) := by
        rw [show (d.served raw).id = c.id from own]
        exact fresh
      simp only [Function.comp, List.map_cons, List.map_nil, own, List.mem_cons, true_or, if_true, once,
        if_false]
    · simp [own]
  · intro id
    rw [rest.members, first.members]
    simp [and_assoc]

theorem Serves.perm (serves : Serves raw cs h g) (same : cs.Perm ds) : Serves raw ds h g := by
  refine ⟨serves.capacity, serves.stays, ?_, ?_⟩
  · rw [serves.connections]
    apply List.map_congr_left
    intro c _
    simp only [(same.map _).mem_iff]
  · intro id
    rw [serves.members]
    refine and_congr_right fun _ => forall_congr' fun c => ?_
    rw [same.mem_iff]

/-- Those that are served leave the hub if their queue overflows. -/
theorem Sound.serves (sound : h.Sound) (mine : ∀ c ∈ cs, c ∈ h.connections)
    (serves : Serves raw cs h g) : g.Sound := by
  refine sound.map id_served serves.stays serves.connections fun d hd => ?_
  rw [serves.members]
  by_cases served : d.id ∈ cs.map (·.id)
  · have own : (∀ c ∈ cs, c.id = d.id → (c.queue.push raw).1 ≠ .overflowed) ↔
        (d.queue.push raw).1 ≠ .overflowed := by
      obtain ⟨c, hc, same⟩ := List.mem_map.mp served
      obtain rfl := sound.eq_of_id (mine c hc) hd same
      refine ⟨fun fits => fits c hc rfl, fun fits d hd same => ?_⟩
      rwa [sound.eq_of_id (mine d hd) (mine c hc) same]
    simp only [served, if_true, own, Connection.served, OutboundQueue.closed_push, Bool.or_eq_true,
      decide_eq_true_eq, sound.closed d hd, sound.queue d hd]
    grind
  · have apart : ∀ c ∈ cs, c.id = d.id → (c.queue.push raw).1 ≠ .overflowed :=
      fun c hc same => absurd (List.mem_map.mpr ⟨c, hc, same⟩) served
    simp only [served, if_false, sound.closed d hd, sound.queue d hd]
    grind

/-- An open member is served alone. -/
theorem serves_pushTo (sound : h.Sound) (hc : c ∈ h.connections) (member : c.id ∈ h.members)
    (raw : Bytes) :
    (h.pushTo raw c).1 = (c.queue.push raw).1.taken ∧ Serves raw [c] h (h.pushTo raw c).2 := by
  obtain ⟨stillOpen, queueOpen⟩ := sound.open_of_mem hc member
  -- Of the connections, only this one has its identifier.
  have changes (f : Connection → Connection) (served : f c = c.served raw) :
      (h.modify c.id f).connections =
        h.connections.map fun d => if d.id ∈ [c].map (·.id) then d.served raw else d := by
    apply List.map_congr_left
    intro d hd
    by_cases same : d.id = c.id
    · simp [sound.eq_of_id hd hc same, served]
    · simp [same]
  unfold pushTo
  rcases pushed : c.queue.push raw with ⟨outcome, queue⟩
  have closed := c.queue.closed_push raw
  rw [pushed, queueOpen, Bool.false_or] at closed
  cases outcome with
  | queued =>
    refine ⟨rfl, rfl, rfl, changes _ ?_, ?_⟩
    · simp [Connection.served, pushed]
    · simp [pushed, modify]
  | droppedOldest =>
    refine ⟨rfl, rfl, rfl, changes _ ?_, ?_⟩
    · simp [Connection.served, pushed]
    · simp [pushed, modify, noteDrop]
  | overflowed =>
    obtain ⟨capacity, stays, connections, members⟩ := unregister_of_mem
      (h := ((h.modify c.id fun d => { d with queue := queue }).noteDrop).noteSlow) member
    let kept : Connection → Connection := fun d => { d with queue := queue }
    have twice : ((h.modify c.id kept).modify c.id Connection.left).connections =
        (h.modify c.id (Connection.left ∘ kept)).connections := modify_modify fun _ => rfl
    refine ⟨rfl, capacity, stays, connections.trans (twice.trans (changes _ ?_)), ?_⟩
    · have shut : queue.close = queue := by
        obtain ⟨size, items, drops, shut⟩ := queue
        obtain rfl : shut = true := closed
        rfl
      simp [Connection.served, Connection.left, pushed, shut, kept]
    · intro id
      rw [members]
      simp only [noteDrop, noteSlow, modify, List.mem_filter, bne_iff_ne, List.mem_singleton, forall_eq,
        pushed, ne_eq, not_true, imp_false, ne_comm (a := c.id)]
  | closed =>
    rw [OutboundQueue.push_eq_closed_iff.mp (congrArg (·.1) pushed)] at queueOpen
    cases queueOpen

/-- All connections of a list are served, each as if it were alone. -/
theorem serves_pushAll (sound : h.Sound)
    (mine : ∀ c ∈ cs, c ∈ h.connections ∧ c.id ∈ h.members) (once : (cs.map (·.id)).Nodup) :
    (pushAll raw cs h).1 = (cs.filter fun c => (c.queue.push raw).1.taken).length ∧
      Serves raw cs h (pushAll raw cs h).2 := by
  induction cs generalizing h with
  | nil => exact ⟨rfl, serves_nil raw h⟩
  | cons c cs ih =>
    obtain ⟨fresh, once⟩ := List.nodup_cons.mp once
    obtain ⟨hc, member⟩ := mine c List.mem_cons_self
    obtain ⟨taken, first⟩ := serves_pushTo sound hc member raw
    rcases pushed : h.pushTo raw c with ⟨took, g⟩
    rw [pushed] at taken first
    have soundly : g.Sound := sound.serves (by simpa using hc) first
    have still : ∀ d ∈ cs, d ∈ g.connections ∧ d.id ∈ g.members := by
      intro d hd
      obtain ⟨known, member⟩ := mine d (List.mem_cons_of_mem _ hd)
      have other : d.id ≠ c.id := fun same => fresh (List.mem_map.mpr ⟨d, hd, same⟩)
      refine ⟨?_, (first.members _).mpr ⟨member, ?_⟩⟩
      · rw [first.connections]
        exact List.mem_map.mpr ⟨d, known, by simp [other]⟩
      · intro x hx same
        exact absurd (List.mem_singleton.mp hx ▸ same) other.symm
    obtain ⟨count, rest⟩ := ih soundly still once
    rw [pushAll, pushed]
    refine ⟨?_, first.cons rest fresh⟩
    dsimp only at taken count ⊢
    rw [List.filter_cons, taken, count]
    split <;> simp

end Serve

/-- The members of the room of a message. -/
def audience (h : Hub) (filter : RoomFilter) (raw : Bytes) : List Connection :=
  h.connections.filter fun c => h.members.contains c.id && (filter raw).any c.rooms.contains

/-- A message is served to its audience, in whatever order. -/
theorem serves_dispatchBy (sound : h.Sound) (order : ServingOrder) (filter : RoomFilter)
    (raw : Bytes) :
    (h.dispatchBy order filter raw).1 = (h.takers filter raw).length ∧
      Serves raw (h.audience filter raw) h (h.dispatchBy order filter raw).2 := by
  have takers : h.takers filter raw =
      (h.audience filter raw).filter fun c => (c.queue.push raw).1.taken := by
    rw [takers, audience, List.filter_filter]
    congr 1
    funext c
    rw [Bool.and_comm]
  rw [takers]
  unfold dispatchBy audience
  rcases filter raw with _ | room
  · simp only [Option.any_none, Bool.and_false, List.filter_false]
    exact ⟨rfl, serves_nil raw h⟩
  · have arranged := order.perm (h.targets room)
    have mine : ∀ c ∈ order.arrange (h.targets room), c ∈ h.connections ∧ c.id ∈ h.members := by
      intro c hc
      have target := List.mem_filter.mp (arranged.mem_iff.mp hc)
      exact ⟨target.1, List.contains_iff_mem.mp (Bool.and_eq_true_iff.mp target.2).1⟩
    have once : ((order.arrange (h.targets room)).map (·.id)).Nodup :=
      (arranged.map _).nodup_iff.mpr (sound.ids.sublist (List.filter_sublist.map _))
    obtain ⟨count, serves⟩ := serves_pushAll sound mine once
    refine ⟨?_, serves.perm arranged⟩
    rw [count]
    exact (arranged.filter _).length_eq

end Hub

end Workboard
