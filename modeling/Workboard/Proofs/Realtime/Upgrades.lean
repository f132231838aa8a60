import Mathlib.Data.List.Induction
import Workboard.Proofs.Realtime.Lifetime
import Workboard.Realtime.Upgrades

/-!
What a shutdown leaves behind. It waits for the tasks that the hub knows of, so all that can remain is an upgrade
that had asked the hub and had not started its task when the wait ended.
-/

namespace Workboard

theorem countP_set_add {α : Type} {l : List α} {n : Nat} (bound : n < l.length) (p : α → Bool) (a : α) :
    (l.set n a).countP p + (p l[n]).toNat = l.countP p + (p a).toNat := by
  have known : p l[n] = true → 0 < l.countP p := fun holds =>
    List.countP_pos_iff.mpr ⟨_, List.getElem_mem bound, holds⟩
  rw [List.countP_set bound]
  cases before : p l[n] with
  | false => cases p a <;> simp
  | true =>
    have some_task := known before
    cases p a <;> simp <;> omega

namespace Hub

theorem register_eq (h : Hub) (id : Uuid) (user : UserId) (rooms : List String) :
    h.register id user rooms =
      match h.refusal? rooms with
      | some e => (.error e, h)
      | none => (.ok (h.newcomer id user rooms), h.takeIn id user rooms) := by
  unfold register refusal?
  split
  · rfl
  · split <;> rfl

theorem foldl_closeQueue (h : Hub) (ids : List Uuid) :
    ids.foldl closeQueue h =
      { h with connections := h.connections.map fun c =>
          if ids.contains c.id then { c with queue := c.queue.close } else c } := by
  induction ids generalizing h with
  | nil => simp
  | cons id ids ih =>
    rw [List.foldl_cons, ih]
    simp only [closeQueue, modify, List.map_map]
    congr 1
    apply List.map_congr_left
    intro c _
    by_cases own : c.id = id
    · simp [own, OutboundQueue.close]
    · simp [own]

theorem beginShutdown_eq (h : Hub) : h.beginShutdown = h.members.foldl closeQueue h.cancel :=
  (foldl_closeQueue h.cancel h.members).symm

end Hub

theorem ShutdownPhase.follows_step (p : ShutdownPhase) (h : Hub) : Hub.Follows [] h (p.step h).2 := by
  cases p with
  | notBegun => exact ⟨rfl, fun _ => rfl, fun _ member => .inl member, .inr ⟨rfl, rfl⟩⟩
  | closing left => cases left <;> exact .quiet rfl rfl rfl rfl
  | _ => exact .quiet rfl rfl rfl rfl

/-- A wait ends in a moment in which the hub has no task to wait for. -/
theorem ShutdownPhase.drains {p : ShutdownPhase} {h : Hub} (drained : (p.step h).1.hasDrained = true) :
    p.hasDrained = true ∨ p = .waiting ∧ h.hasStopped = true := by
  cases p with
  | notBegun | cancelled => cases drained
  | closing left => cases left <;> cases drained
  | waiting =>
    refine .inr ⟨rfl, ?_⟩
    by_contra busy
    simp [ShutdownPhase.step, busy, hasDrained] at drained
  | drained | returned => exact .inl rfl

theorem UpgradePhase.not_isRegistered_of_isOutside {p : UpgradePhase} (out : p.isOutside = true) :
    ¬ p.isRegistered = true := by
  cases p with
  | registered | running => cases out
  | _ => exact Bool.false_ne_true

namespace Upgrade

variable {u : Upgrade} {h g : Hub} {phase : UpgradePhase}

/-- What an upgrade can do next. -/
inductive Moves (u : Upgrade) (h : Hub) : UpgradePhase → Hub → Prop
  | stays : Moves u h u.phase h
  | refused {e : HubError} (asks : u.phase = .authorized) : Moves u h (.refused e) h
  | admitted (asks : u.phase = .authorized) (free : h.refusal? u.rooms = none) : Moves u h .admitted h
  | registers (admitted : u.phase = .admitted) : Moves u h .registered (h.takeIn u.id u.user u.rooms)
  | starts (registered : u.phase = .registered) : Moves u h .running h.track
  | leaves (running : u.phase = .running) : Moves u h .leaving (h.unregister u.id)
  | ends (leaving : u.phase = .leaving) : Moves u h .ended h.untrack
  | givesUp (registered : u.phase = .registered) : Moves u h .ended (h.unregister u.id)

theorem moves_step (u : Upgrade) (h : Hub) : u.Moves h (u.step h).1 (u.step h).2 := by
  unfold step
  split
  next asks =>
    split
    · exact .refused asks
    next free => exact .admitted asks free
  next admitted => exact .registers admitted
  next registered => exact .starts registered
  next running => exact .leaves running
  next leaving => exact .ends leaving
  next phase => exact phase ▸ .stays
  next phase => exact phase ▸ .stays

theorem moves_giveUp (u : Upgrade) (h : Hub) : u.Moves h (u.giveUp h).1 (u.giveUp h).2 := by
  unfold giveUp
  split
  next registered => exact .givesUp registered
  next => exact .stays

theorem Moves.shuttingDown (moves : u.Moves h phase g) : g.shuttingDown = h.shuttingDown := by
  have unregister : (h.unregister u.id).shuttingDown = h.shuttingDown := by
    by_cases member : u.id ∈ h.members
    · exact (Hub.unregister_of_mem member).2.1
    · rw [Hub.unregister_of_not_mem member]
  cases moves with
  | leaves | givesUp => exact unregister
  | _ => rfl

/-- A member stays one or is let go, and a new one is the upgrade's own connection. -/
theorem Moves.members (moves : u.Moves h phase g) : ∀ id ∈ g.members,
    id = u.id ∧ phase.isRegistered = true ∨ id ∈ h.members ∧ (u.phase.isRegistered = true → id ≠ u.id) := by
  intro id member
  have letGo (gone : id ∈ (h.unregister u.id).members) : id ∈ h.members ∧ id ≠ u.id := by
    constructor
    · exact ((Hub.follows_unregister h u.id).members id gone).resolve_right List.not_mem_nil
    · rintro rfl
      exact Hub.not_mem_unregister h u.id gone
  cases moves with
  | stays =>
    by_cases registered : u.phase.isRegistered = true
    · by_cases own : id = u.id
      · exact .inl ⟨own, registered⟩
      · exact .inr ⟨member, fun _ => own⟩
    · exact .inr ⟨member, fun registered' => absurd registered' registered⟩
  | refused asks | admitted asks => exact .inr ⟨member, by simp [asks, UpgradePhase.isRegistered]⟩
  | registers admitted =>
    rcases List.mem_append.mp member with old | new
    · exact .inr ⟨old, by simp [admitted, UpgradePhase.isRegistered]⟩
    · exact .inl ⟨List.mem_singleton.mp new, rfl⟩
  | starts =>
    by_cases own : id = u.id
    · exact .inl ⟨own, rfl⟩
    · exact .inr ⟨member, fun _ => own⟩
  | leaves | givesUp => exact .inr ⟨(letGo member).1, fun _ => (letGo member).2⟩
  | ends leaving => exact .inr ⟨member, by simp [leaving, UpgradePhase.isRegistered]⟩

/-- The hub counts the task of the upgrade from its start to its end. -/
theorem Moves.running (moves : u.Moves h phase g) (counted : u.phase.isTracked = true → 0 < h.running) :
    g.running + u.phase.isTracked.toNat = h.running + phase.isTracked.toNat := by
  have letGo := (Hub.follows_unregister h u.id).running
  cases moves with
  | stays => rfl
  | refused asks | admitted asks => rw [asks]; rfl
  | registers admitted => rw [admitted]; rfl
  | starts registered => rw [registered]; rfl
  | leaves running => rw [running, letGo]; rfl
  | givesUp registered => rw [registered, letGo]; rfl
  | ends leaving =>
    rw [leaving] at counted ⊢
    exact Nat.sub_add_cancel (counted rfl)

/-- Once a shutdown has begun, one that has not asked the hub yet does not get in. -/
theorem Moves.outside (moves : u.Moves h phase g) (stops : h.shuttingDown = true)
    (out : u.phase.isOutside = true) : phase.isOutside = true := by
  cases moves with
  | stays => exact out
  | refused asks => rfl
  | admitted asks free =>
    rw [Hub.refusal?, if_pos stops] at free
    cases free
  | registers before | starts before | leaves before =>
    rw [before] at out
    cases out
  | ends | givesUp => rfl

end Upgrade

namespace UpgradeWorld

variable {v w : UpgradeWorld} {u : Upgrade} {n : Nat}

inductive Happens (w : UpgradeWorld) : UpgradeWorld → Prop
  | comes (u : Upgrade) (asks : u.phase = .authorized) : Happens w { w with upgrades := w.upgrades ++ [u] }
  | moves {n : Nat} {u : Upgrade} {phase : UpgradePhase} {g : Hub} (found : w.upgrades[n]? = some u)
    (moves : u.Moves w.hub phase g) :
    Happens w { w with upgrades := w.upgrades.set n { u with phase := phase }, hub := g }
  | onHub {g : Hub} (follows : Hub.Follows [] w.hub g) : Happens w { w with hub := g }
  | starts : Happens w { w with hub := w.hub.track, others := w.others + 1 }
  | ends (others : w.others ≠ 0) : Happens w { w with hub := w.hub.untrack, others := w.others - 1 }
  | shutdown : Happens w { w with shutdown := (w.shutdown.step w.hub).1, hub := (w.shutdown.step w.hub).2 }

theorem happens_act (w : UpgradeWorld) (n : Nat) {f : Upgrade → Hub → UpgradePhase × Hub}
    (moves : ∀ (u : Upgrade) (h : Hub), u.Moves h (f u h).1 (f u h).2) : w.Happens (w.act n f) := by
  unfold act
  split
  · exact .onHub (.quiet rfl rfl rfl rfl)
  next u found => exact .moves found (moves u w.hub)

theorem happens_after (w : UpgradeWorld) (e : UpgradeEvent) : w.Happens (w.after e) := by
  cases e with
  | come id user rooms => exact .comes _ rfl
  | step n => exact w.happens_act n Upgrade.moves_step
  | giveUp n => exact w.happens_act n Upgrade.moves_giveUp
  | push raw id =>
    unfold after
    dsimp only
    split
    · exact .onHub (.quiet rfl rfl rfl rfl)
    next c _ => exact .onHub (Hub.follows_pushTo w.hub raw c)
  | next id => exact .onHub (Hub.follows_next w.hub id)
  | close id => exact .onHub (Hub.follows_unregister w.hub id)
  | startTask => exact .starts
  | endTask =>
    unfold after
    dsimp only
    split
    · exact .onHub (.quiet rfl rfl rfl rfl)
    next others => exact .ends others
  | shutdown => exact .shutdown

theorem run_append (w : UpgradeWorld) (front back : List UpgradeEvent) :
    w.run (front ++ back) = (w.run front).run back := List.foldl_append

theorem run_concat (w : UpgradeWorld) (events : List UpgradeEvent) (e : UpgradeEvent) :
    w.run (events ++ [e]) = (w.run events).after e := w.run_append events [e]

theorem act_of_found (found : w.upgrades[n]? = some u) (f : Upgrade → Hub → UpgradePhase × Hub) :
    w.act n f =
      { w with upgrades := w.upgrades.set n { u with phase := (f u w.hub).1 }, hub := (f u w.hub).2 } := by
  rw [act, found]

/-- If nothing comes between its first two steps, an upgrade registers as one call of the hub does. -/
theorem run_register (found : w.upgrades[n]? = some u) (asks : u.phase = .authorized) :
    (w.run [.step n, .step n]).hub = (w.hub.register u.id u.user u.rooms).2 := by
  obtain ⟨bound, -⟩ := List.getElem?_eq_some_iff.mp found
  have again (phase : UpgradePhase) :
      (w.upgrades.set n { u with phase := phase })[n]? = some { u with phase := phase } :=
    List.getElem?_set_self bound
  change ((w.act n Upgrade.step).act n Upgrade.step).hub = _
  rw [Hub.register_eq, act_of_found found, act_of_found (again _)]
  cases refused : w.hub.refusal? u.rooms <;> simp only [Upgrade.step, asks, refused]

theorem run_closing {left : List Uuid} (closing : w.shutdown = .closing left) :
    w.run (List.replicate (left.length + 1) .shutdown) =
      { w with hub := left.foldl Hub.closeQueue w.hub, shutdown := .waiting } := by
  induction left generalizing w with
  | nil => simp [run, after, ShutdownPhase.step, closing]
  | cons id left ih =>
    have told : w.after .shutdown = { w with hub := w.hub.closeQueue id, shutdown := .closing left } := by
      simp [after, ShutdownPhase.step, closing]
    rw [List.length_cons, List.replicate_succ, run, List.foldl_cons, told]
    exact ih rfl

/-- If nothing comes between its steps, a shutdown tells the members to end as one call of the hub does. -/
theorem run_beginShutdown (begins : w.shutdown = .notBegun) :
    w.run (List.replicate (w.hub.members.length + 3) .shutdown) =
      { w with hub := w.hub.beginShutdown, shutdown := .waiting } := by
  have told : (w.after .shutdown).after .shutdown =
      { w with hub := w.hub.cancel, shutdown := .closing w.hub.members } := by
    simp [after, ShutdownPhase.step, begins, Hub.cancel]
  rw [List.replicate_succ, List.replicate_succ, run, List.foldl_cons, List.foldl_cons, told, Hub.beginShutdown_eq]
  exact run_closing rfl

/-- Such a shutdown returns if no task runs, and whoever was a member still is one. -/
theorem run_shutdown_idle (begins : w.shutdown = .notBegun) (idle : w.hub.running = 0) :
    w.run (List.replicate (w.hub.members.length + 5) .shutdown) =
      { w with hub := w.hub.beginShutdown, shutdown := .returned } := by
  have stopped : w.hub.beginShutdown.hasStopped = true := by simp [Hub.hasStopped, Hub.beginShutdown, idle]
  have parts : List.replicate (w.hub.members.length + 5) UpgradeEvent.shutdown =
      List.replicate (w.hub.members.length + 3) .shutdown ++ [.shutdown, .shutdown] :=
    (List.replicate_append_replicate (n := w.hub.members.length + 3) (m := 2)).symm
  rw [parts, run_append, run_beginShutdown begins]
  simp [run, after, ShutdownPhase.step, stopped]

/-- Members are connections of upgrades, and the hub knows how many tasks run. -/
structure Accounted (w : UpgradeWorld) : Prop where
  members : ∀ id ∈ w.hub.members, ∃ u ∈ w.upgrades, u.id = id ∧ u.phase.isRegistered = true
  running : w.hub.running = w.upgrades.countP (·.phase.isTracked) + w.others

theorem accounted_ofCapacity (capacity : Nat) : (ofCapacity capacity).Accounted :=
  ⟨nofun, rfl⟩

theorem Accounted.onHub (accounted : w.Accounted) {g : Hub} (follows : Hub.Follows [] w.hub g) :
    Accounted { w with hub := g } := by
  refine ⟨fun id member => ?_, follows.running.trans accounted.running⟩
  rcases follows.members id member with old | new
  · exact accounted.members id old
  · cases new

theorem Accounted.move (accounted : w.Accounted) (found : w.upgrades[n]? = some u) {phase : UpgradePhase} {g : Hub}
    (moves : u.Moves w.hub phase g) :
    Accounted { w with upgrades := w.upgrades.set n { u with phase := phase }, hub := g } := by
  obtain ⟨bound, rfl⟩ := List.getElem?_eq_some_iff.mp found
  have counted := accounted.running
  refine ⟨fun id member => ?_, ?_⟩
  · rcases moves.members id member with ⟨rfl, registered⟩ | ⟨old, other⟩
    · exact ⟨_, List.mem_set bound _, rfl, registered⟩
    · obtain ⟨d, hd, rfl, registered⟩ := accounted.members id old
      obtain ⟨m, there⟩ := List.mem_iff_getElem?.mp hd
      -- Identifiers need not be distinct here, so it is the place in the list that tells upgrades apart.
      have apart : n ≠ m := by
        rintro rfl
        obtain rfl : w.upgrades[n] = d := Option.some.inj (found.symm.trans there)
        exact other registered rfl
      refine ⟨d, List.mem_of_getElem? (i := m) ?_, rfl, registered⟩
      rwa [List.getElem?_set_ne apart]
  · have known : w.upgrades[n].phase.isTracked = true → 0 < w.hub.running := by
      intro tracked
      have waits : 0 < w.upgrades.countP (·.phase.isTracked) :=
        List.countP_pos_iff.mpr ⟨_, List.getElem_mem bound, tracked⟩
      omega
    have moved := countP_set_add bound (·.phase.isTracked) { w.upgrades[n] with phase := phase }
    have step := moves.running known
    dsimp only at moved ⊢
    omega

theorem Accounted.next (accounted : v.Accounted) (happens : v.Happens w) : w.Accounted := by
  have counted := accounted.running
  cases happens with
  | comes u asks =>
    refine ⟨fun id member => ?_, ?_⟩
    · obtain ⟨d, hd, own⟩ := accounted.members id member
      exact ⟨d, List.mem_append_left _ hd, own⟩
    · simpa [asks, UpgradePhase.isTracked] using counted
  | moves found moves => exact accounted.move found moves
  | onHub follows => exact accounted.onHub follows
  | starts =>
    refine ⟨accounted.members, ?_⟩
    simp only [Hub.track]
    omega
  | ends others =>
    refine ⟨accounted.members, ?_⟩
    simp only [Hub.untrack]
    omega
  | shutdown =>
    have onHub := accounted.onHub (v.shutdown.follows_step v.hub)
    exact ⟨onHub.members, onHub.running⟩

theorem accounted_run (capacity : Nat) (events : List UpgradeEvent) :
    ((ofCapacity capacity).run events).Accounted := by
  induction events using List.reverseRecOn with
  | nil => exact accounted_ofCapacity capacity
  | append_singleton events e ih =>
    rw [run_concat]
    exact ih.next (happens_after _ e)

theorem Accounted.no_task (accounted : w.Accounted) (stopped : w.hub.hasStopped = true) :
    w.hub.running = 0 ∧ ∀ u ∈ w.upgrades, u.phase.isTracked = false := by
  have idle : w.hub.running = 0 := by simpa using (Bool.and_eq_true_iff.mp stopped).2
  have none_counted : w.upgrades.countP (·.phase.isTracked) = 0 := by
    have counted := accounted.running
    omega
  exact ⟨idle, fun u hu => by simpa using List.countP_eq_zero.mp none_counted u hu⟩

/-- What can come after a moment in which no task was left: only an upgrade that was pending then gets anywhere. -/
structure Settles (v w : UpgradeWorld) : Prop where
  stops : w.hub.shuttingDown = true
  outside : ∀ n u, w.upgrades[n]? = some u → v.IsPending n ∨ u.phase.isOutside = true

theorem Accounted.settles (accounted : w.Accounted) (stopped : w.hub.hasStopped = true) : Settles w w := by
  refine ⟨(Bool.and_eq_true_iff.mp stopped).1, fun n u there => ?_⟩
  have idle := (accounted.no_task stopped).2 u (List.mem_of_getElem? there)
  cases pending : u.phase.isPending with
  | true => exact .inl ⟨u, there, pending⟩
  | false => exact .inr (by rw [UpgradePhase.isOutside, pending, idle]; rfl)

theorem Settles.next {k : UpgradeWorld} (settles : Settles k v) (happens : v.Happens w) : Settles k w := by
  cases happens with
  | comes u asks =>
    refine ⟨settles.stops, fun n d there => ?_⟩
    rcases Nat.lt_or_ge n v.upgrades.length with known | new
    · rw [List.getElem?_append_left known] at there
      exact settles.outside n d there
    · rw [List.getElem?_append_right new] at there
      obtain rfl := List.mem_singleton.mp (List.mem_of_getElem? there)
      exact .inr (by rw [asks]; rfl)
  | @moves n u phase g found moves =>
    refine ⟨moves.shuttingDown.trans settles.stops, fun m d there => ?_⟩
    rw [List.getElem?_set] at there
    split at there
    next same =>
      subst same
      split at there
      · obtain rfl := Option.some.inj there
        exact (settles.outside n u found).imp_right (moves.outside settles.stops)
      · cases there
    next => exact settles.outside m d there
  | onHub follows => exact ⟨follows.stops settles.stops, settles.outside⟩
  | starts | ends others => exact ⟨settles.stops, settles.outside⟩
  | shutdown => exact ⟨(v.shutdown.follows_step v.hub).stops settles.stops, settles.outside⟩

theorem shutdown_after (w : UpgradeWorld) {e : UpgradeEvent} (other : e ≠ .shutdown) :
    (w.after e).shutdown = w.shutdown := by
  cases e with
  | shutdown => exact absurd rfl other
  | step n | giveUp n =>
    unfold after act
    dsimp only
    split <;> rfl
  | push raw id =>
    unfold after
    dsimp only
    split <;> rfl
  | endTask =>
    unfold after
    dsimp only
    split <;> rfl
  | _ => rfl

/-- A shutdown that is past its wait was at the end of it once. -/
theorem drained_run (capacity : Nat) {events : List UpgradeEvent}
    (drained : ((ofCapacity capacity).run events).shutdown.hasDrained = true) :
    ∃ before after, events = before ++ .shutdown :: after ∧
      ((ofCapacity capacity).run before).shutdown = .waiting ∧
      ((ofCapacity capacity).run before).hub.hasStopped = true ∧
      Settles ((ofCapacity capacity).run before) ((ofCapacity capacity).run events) := by
  -- Either the wait was over before the last event, or the last event ends it.
  induction events using List.reverseRecOn with
  | nil => cases drained
  | append_singleton events e ih =>
    rw [run_concat] at drained ⊢
    have happens := happens_after ((ofCapacity capacity).run events) e
    by_cases already : ((ofCapacity capacity).run events).shutdown.hasDrained = true
    · obtain ⟨before, after, rfl, waiting, stopped, settles⟩ := ih already
      exact ⟨before, after ++ [e], by simp, waiting, stopped, settles.next happens⟩
    · have now : e = .shutdown := by
        by_contra other
        rw [shutdown_after _ other] at drained
        exact already drained
      subst now
      obtain ⟨waiting, stopped⟩ := (ShutdownPhase.drains drained).resolve_left already
      have accounted := accounted_run capacity events
      exact ⟨events, [], rfl, waiting, stopped, (accounted.settles stopped).next happens⟩

/-- A shutdown leaves behind only what it could not know of. When it has returned, every read ends, and there was a
moment at the end of its wait in which no task was left. Whoever is still a member, and whatever task still runs,
belongs to an upgrade that had asked the hub and had not started its task at that moment. If there was none, there
is no member and no task. -/
theorem shutdown_leaves_only_pending (capacity : Nat) (events : List UpgradeEvent)
    (returned : ((ofCapacity capacity).run events).shutdown = .returned) :
    let w := (ofCapacity capacity).run events
    (∀ id, w.hub.next id = (.closed, w.hub)) ∧
    ∃ before after, events = before ++ .shutdown :: after ∧
      let v := (ofCapacity capacity).run before
      v.shutdown = .waiting ∧ v.hub.running = 0 ∧ (∀ u ∈ v.upgrades, u.phase.isTracked = false) ∧
      (∀ id ∈ w.hub.members, ∃ n u, w.upgrades[n]? = some u ∧ u.id = id ∧ v.IsPending n) ∧
      (∀ n u, w.upgrades[n]? = some u → u.phase.isTracked = true → v.IsPending n) ∧
      ((∀ n, ¬ v.IsPending n) → w.hub.count = 0 ∧ ∀ u ∈ w.upgrades, u.phase.isTracked = false) := by
  intro w
  obtain ⟨before, after, split, waiting, stopped, settles⟩ := drained_run capacity (by rw [returned]; rfl)
  obtain ⟨idle, ended⟩ := (accounted_run capacity before).no_task stopped
  have members : ∀ id ∈ w.hub.members, ∃ n u, w.upgrades[n]? = some u ∧ u.id = id ∧
      ((ofCapacity capacity).run before).IsPending n := by
    intro id member
    obtain ⟨u, hu, own, registered⟩ := (accounted_run capacity events).members id member
    obtain ⟨n, there⟩ := List.mem_iff_getElem?.mp hu
    refine ⟨n, u, there, own, (settles.outside n u there).resolve_right fun out => ?_⟩
    exact UpgradePhase.not_isRegistered_of_isOutside out registered
  have tasks : ∀ n u, w.upgrades[n]? = some u → u.phase.isTracked = true →
      ((ofCapacity capacity).run before).IsPending n := by
    intro n u there tracked
    refine (settles.outside n u there).resolve_right fun out => ?_
    simp [UpgradePhase.isOutside, tracked] at out
  have closed := Hub.isClosed_of_shuttingDown settles.stops
  refine ⟨fun id => Hub.next_of_isClosed (closed id), before, after, split, waiting, idle, ended, members, tasks,
    fun nobody => ⟨?_, fun u hu => ?_⟩⟩
  · refine List.length_eq_zero_iff.mpr (List.eq_nil_iff_forall_not_mem.mpr fun id member => ?_)
    obtain ⟨n, u, -, -, pending⟩ := members id member
    exact nobody n pending
  · obtain ⟨n, there⟩ := List.mem_iff_getElem?.mp hu
    exact Bool.eq_false_iff.mpr fun tracked => nobody n (tasks n u there tracked)

/-- One connection is served until the hub is shut down. The other is a member whose task starts afterwards. -/
def oneLate : List UpgradeEvent :=
  [.come ⟨1⟩ ⟨⟨7⟩⟩ ["tea"], .step 0, .step 0, .step 0, .come ⟨2⟩ ⟨⟨8⟩⟩ ["milk"], .step 1, .step 1] ++
    List.replicate 5 .shutdown ++ [.step 0, .shutdown, .step 0, .shutdown, .shutdown, .step 1]

theorem shutdown_leaves_only_pending_one_late :
    let w := (ofCapacity 2).run oneLate
    w.shutdown = .returned ∧ w.hub.next ⟨2⟩ = (.closed, w.hub) ∧
      ∃ before after, oneLate = before ++ .shutdown :: after ∧ ((ofCapacity 2).run before).IsPending 1 := by
  intro w
  obtain ⟨ended, before, after, split, -, -, -, -, tasks, -⟩ := shutdown_leaves_only_pending 2 oneLate (by decide)
  exact ⟨by decide, ended ⟨2⟩, before, after, split, tasks 1 ⟨⟨2⟩, ⟨⟨8⟩⟩, ["milk"], .running⟩ rfl rfl⟩

/-- The whole shutdown comes between the registration of a connection and the start of its task. -/
def overtaken : List UpgradeEvent :=
  [.come ⟨1⟩ ⟨⟨7⟩⟩ ["tea"], .step 0, .step 0] ++ List.replicate 6 .shutdown

/-- Neither the connection nor its task is gone when the shutdown has returned. -/
theorem shutdown_leaves_connection :
    ((ofCapacity 2).run overtaken).shutdown = .returned ∧ ((ofCapacity 2).run overtaken).hub.count = 1 ∧
      ((ofCapacity 2).run (overtaken ++ [.step 0])).shutdown = .returned ∧
      ∃ u ∈ ((ofCapacity 2).run (overtaken ++ [.step 0])).upgrades, u.phase = .running := by
  decide

end UpgradeWorld

end Workboard
