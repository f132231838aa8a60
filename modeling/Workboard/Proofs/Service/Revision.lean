import Workboard.Proofs.Service.Remembered

/-!
What the revision of a workspace counts: the changes of its to-dos that have succeeded, in a cache whose store does
not fail. Nothing that is stored, read or deleted there by any other name touches a counter.
-/

namespace Workboard

open CachedTodos

/-- The full name under which the answer to a question is cached. -/
def CachedTodos.IsAnswer (root key : String) : Prop := ∃ q : TodoQuestion, key = CacheKey.full root q.key

/-- The full name of the counter of a workspace. -/
def CachedTodos.revisionKey (root : String) (workspace : WorkspaceId) : String :=
  CacheKey.full root (CacheKey.revision workspace.toText)

variable {root : String} {count : WorkspaceId → Int}

theorem revisionKey_injective {w w' : WorkspaceId} (h : revisionKey root w = revisionKey root w') : w = w' := by
  have same := TodoName.key_injective (a := .revision w) (b := .revision w') (CacheKey.full_injective h)
  exact TodoName.revision.inj same

theorem revisionKey_ne_answer {key : String} (h : IsAnswer root key) (w : WorkspaceId) : revisionKey root w ≠ key := by
  obtain ⟨q, rfl⟩ := h
  intro h
  rw [← TodoQuestion.key_name q] at h
  have same := TodoName.key_injective (a := .revision w) (CacheKey.full_injective h)
  cases q <;> cases same

theorem revisionKey_ne_tag (w workspace : WorkspaceId) :
    revisionKey root w ≠ CacheKey.full root (workspaceTag workspace) := by
  intro h
  have same := TodoName.key_injective (a := .revision w) (b := .tag workspace) (CacheKey.full_injective h)
  cases same

namespace MemoryStore

/-- A store that does not fail, in which the counters of workspaces show some numbers and tags have answers as their
members. -/
structure Tallies (root : String) (count : WorkspaceId → Int) (s : MemoryStore) : Prop where
  healthy : s.Healthy
  counts : ∀ w, s.count (revisionKey root w) = count w
  members : ∀ tag t, s.tags.get? tag = some t → ∀ key ∈ t.content, IsAnswer root key

variable {s : MemoryStore}

theorem tallies_empty (root : String) : empty.Tallies root fun _ => 0 :=
  ⟨⟨rfl, rfl⟩, fun _ => rfl, by rintro tag t ⟨⟩⟩

theorem Tallies.get (h : s.Tallies root count) (now : Nat) (key : String) : (s.get now key).2.Tallies root count := by
  have kept : (read now key s).2.Tallies root count := by
    unfold read
    split
    · split
      · exact h
      · exact ⟨⟨h.healthy.up, h.healthy.unarmed⟩, h.counts, h.members⟩
    · exact h
  rw [MemoryStore.get, h.healthy.guarded]
  exact kept

theorem Tallies.set (h : s.Tallies root count) (now : Nat) (key : String) (value : Bytes) (ttl : Nat) :
    (s.set now key value ttl).2.Tallies root count := by
  rw [MemoryStore.set, h.healthy.risked]
  split
  · exact ⟨⟨h.healthy.up, h.healthy.unarmed⟩, h.counts, h.members⟩
  · exact h

theorem Tallies.addToTag (h : s.Tallies root count) {key : String} (answer : IsAnswer root key) (now : Nat)
    (tag : String) (ttl : Nat) : (s.addToTag now tag key ttl).2.Tallies root count := by
  have kept (expires : Nat) :
      { s with tags := s.tags.insert tag ⟨s.joined now tag key, expires⟩ }.Tallies root count := by
    refine ⟨⟨h.healthy.up, h.healthy.unarmed⟩, h.counts, ?_⟩
    intro other t found k mem
    dsimp only at found
    rw [Entries.get?_insert] at found
    split at found
    · cases found
      rcases mem_joined.mp mem with old | rfl
      · obtain ⟨t, found, -, mem⟩ := mem_members.mp old
        exact h.members tag t found k mem
      · exact answer
    · exact h.members other t found k mem
  rw [MemoryStore.addToTag, h.healthy.risked]
  dsimp only
  split
  · exact kept _
  · exact kept _

theorem Tallies.foldl_remove (h : s.Tallies root count) (names : List String)
    (apart : ∀ w, revisionKey root w ∉ names) : (names.foldl remove s).Tallies root count := by
  induction names generalizing s with
  | nil => exact h
  | cons name names ih =>
    -- A name is removed from the values, the tags and the counters alike.
    refine ih ⟨⟨h.healthy.up, h.healthy.unarmed⟩, ?_, ?_⟩ fun w mem => apart w (List.mem_cons_of_mem _ mem)
    · intro w
      have other : revisionKey root w ≠ name := fun same => apart w (same ▸ List.mem_cons_self)
      have left : (s.counters.erase name).get? (revisionKey root w) = s.counters.get? (revisionKey root w) := by
        rw [Entries.get?_erase, if_neg other]
      rw [← h.counts w, MemoryStore.count, MemoryStore.count, ← left]
      rfl
    · intro tag t found
      have held : (s.tags.erase name).get? tag = some t := found
      rw [Entries.get?_erase] at held
      split at held
      · cases held
      · exact h.members tag t held

theorem Tallies.incr (h : s.Tallies root count) (w : WorkspaceId) :
    { s with counters := s.counters.insert (revisionKey root w) (s.count (revisionKey root w) + 1) }.Tallies root
      fun w' => count w' + if w' = w then 1 else 0 := by
  refine ⟨⟨h.healthy.up, h.healthy.unarmed⟩, ?_, h.members⟩
  intro w'
  rw [MemoryStore.count]
  dsimp only
  rw [Entries.get?_insert]
  by_cases own : w' = w
  · subst own
    simp [h.counts w']
  · have other : revisionKey root w' ≠ revisionKey root w := fun same => own (revisionKey_injective same)
    rw [if_neg other, if_neg own, Int.add_zero, ← h.counts w']
    rfl

end MemoryStore

namespace TodoService

/-- What is dropped after a change counts the change, and nothing else, in its workspace. -/
theorem invalidate_tallies {c : CacheAside CachedTodos} (same_root : c.root = root)
    (h : c.store.Tallies root count) (wall : Nat) (changed : ChangedTodo) :
    (invalidate wall c changed).store.Tallies root
      fun w => count w + if w = changed.workspaceId then 1 else 0 := by
  subst same_root
  have dropped : (c.store.remove (c.fullKey (todoKey changed.id))).Tallies c.root count := by
    refine h.foldl_remove [c.fullKey (todoKey changed.id)] fun w => ?_
    rw [List.mem_singleton]
    exact revisionKey_ne_answer ⟨.one changed.id, rfl⟩ w
  have counted := dropped.incr changed.workspaceId
  unfold invalidate
  dsimp only
  rw [Invalidation.run_entity wall h.healthy, Invalidation.run_tag counted.healthy]
  -- The members of the tag are answers, so that neither they nor the tag are counters.
  refine counted.foldl_remove _ fun w mem => ?_
  rcases List.mem_append.mp mem with member | own
  · obtain ⟨t, found, -, member⟩ := MemoryStore.mem_members.mp member
    exact revisionKey_ne_answer (counted.members _ t found _ member) w rfl
  · exact revisionKey_ne_tag w changed.workspaceId (List.mem_singleton.mp own)

variable {s : TodoService} {c : TodoCache}

/-- A service with a cache in which the counters of workspaces show some numbers. -/
structure Tallies (root : String) (count : WorkspaceId → Int) (s : TodoService) (c : TodoCache) : Prop where
  cached : s.cache = some c
  same_root : c.aside.root = root
  grounded : c.aside.flights.opened = []
  store : c.aside.store.Tallies root count
  fills : ∀ f ∈ s.fills, IsAnswer root f.key

theorem Tallies.revision (h : s.Tallies root count c) (w : WorkspaceId) : s.revision w = (.ok (count w), s) := by
  have counts := h.store.counts w
  have names : revisionKey root w = c.aside.fullKey (CacheKey.revision w.toText) := by
    rw [← h.same_root]
    rfl
  have shown : c.aside.revision w.toText = (.ok (c.aside.store.count (revisionKey root w)), c.aside) := by
    rw [CacheAside.revision, ← names, MemoryStore.counter, h.store.healthy.guarded]
  have same : { s with cache := some c } = s := by rw [← h.cached]
  rw [TodoService.revision, h.cached]
  dsimp only
  rw [shown, counts]
  exact congrArg (Prod.mk _) same

theorem Tallies.read {α : Type} (h : s.Tallies root count c) (q : TodoQuestion) (wrap : α → CachedTodos)
    (unwrap? : CachedTodos → Option α) (fetch : Repository → Except ServiceError α × Repository) :
    ∃ d, (s.read q.reading wrap unwrap? fetch).2.Tallies root count d := by
  have key : c.aside.fullKey (q.reading c).key = CacheKey.full root q.key := by
    rw [CacheAside.fullKey, h.same_root]
    cases q <;> rfl
  have touched := (q.reading c).run_store s.wall (wrapped wrap fetch) h.grounded s.db.repository
  have looked := h.store.get s.wall (c.aside.fullKey (q.reading c).key)
  have rest : let ran := (q.reading c).run s.wall (wrapped wrap fetch) c.aside s.db.repository
      ran.2.2.1.root = root ∧ ran.2.2.1.flights.opened = [] ∧ ∀ f ∈ ran.2.1.toList, IsAnswer root f.key := by
    obtain ⟨d, shrinks, grounded, ⟨v, -, ran⟩ | ⟨-, observed, ran⟩⟩ :=
      (q.reading c).run_cases s.wall (wrapped wrap fetch) h.grounded s.db.repository
    · rw [ran]
      exact ⟨shrinks.root.trans h.same_root, grounded, by simp⟩
    · rw [ran]
      refine ⟨shrinks.root.trans h.same_root, grounded, fun f new => ?_⟩
      obtain ⟨v, -, rfl⟩ := Option.map_eq_some_iff.mp (Option.mem_toList.mp new)
      exact ⟨q, key⟩
  obtain ⟨same_root, grounded, fills⟩ := rest
  rw [read_snd, h.cached]
  refine ⟨_, rfl, same_root, grounded, touched ▸ looked, fun f mem => ?_⟩
  exact (List.mem_append.mp mem).elim (h.fills f) (fills f)

theorem Tallies.doFill (h : s.Tallies root count c) (place pause : Nat) :
    ∃ d, (s.doFill place pause).Tallies root count d := by
  unfold TodoService.doFill
  split
  next => exact ⟨c, h⟩
  next f found =>
    have answer := h.fills f (List.mem_of_getElem? found)
    obtain ⟨store, ran, tallies⟩ := Fill.runSlowly_keeps (f := f) (P := MemoryStore.Tallies root count)
      (fun s now bytes _ tallies => tallies.set now f.key bytes f.ttl)
      (fun s now tag tallies => tallies.addToTag answer now tag f.tagTtl) s.wall (s.wall + pause) c.aside h.store
    rw [h.cached, Option.map_some, ran]
    exact ⟨_, rfl, h.same_root, h.grounded, tallies, fun g left => h.fills g (List.mem_of_mem_eraseIdx left)⟩

/-- A change that returns tells the cache of one to-do, in the workspace in which it was to be. -/
theorem hooks_of_returned {mapper : EventMapper} {db : Database} {clock : SteppingClock} {e : ServiceEvent}
    {task : Task Todo} (ht : e.task? mapper = some task) {v : Todo}
    (returned : (executed task db clock).ending = .returned v) :
    ∃ changed, (executed task db clock).hooks = [changed] ∧ e.home? db = some changed.workspaceId := by
  obtain ⟨q, rows, ⟨begun, ⟨-, -, -, outbox, -, rfl⟩, hr⟩, -, done⟩ := Work.execute_returned returned
  have told {t : TrackedTodo} {write : RowWrite} (scope : q.scope = scopeOf mapper t write)
      (home : e.home? db = some t.todo.workspaceId) :
      ∃ changed, (executed task db clock).hooks = [changed] ∧ e.home? db = some changed.workspaceId :=
    ⟨_, done.hooks.trans (congrArg Scope.hooks scope), home⟩
  rcases task?_cases ht with ⟨workspace, title, rfl, rfl⟩ | ⟨id, change, rfl, home, changes⟩ | ⟨id, rfl, rfl⟩
  · obtain ⟨t, made, scope, -⟩ := run_create rfl hr
    exact told scope (congrArg some (TrackedTodo.create_leads made).2.2.symm)
  · obtain ⟨old, t, found, changed, scope⟩ := run_mutate rfl hr
    refine told scope ?_
    rw [home, (changes old _ t changed).2.2]
    exact congrArg (Option.map (·.workspaceId)) found
  · obtain ⟨old, found, scope⟩ := run_removal rfl hr
    refine told scope ?_
    exact congrArg (Option.map fun t : Todo => t.workspaceId) found

theorem hooks_of_stops {α : Type} {task : Task α} {db : Database} {clock : SteppingClock} {stop : Stop ServiceError}
    (stops : task.StopsAt db .never false 0 clock stop) :
    (executed task db clock).hooks = [] ∧ ∀ v, (executed task db clock).ending ≠ .returned v := by
  obtain ⟨ending, undone⟩ := Work.execute_of_stopsAt ServiceError.unitOfWork stops
  refine ⟨undone.hooks, fun v returned => ?_⟩
  have told := ending.symm.trans returned
  cases stop <;> cases told

theorem reply?_of_task {e : ServiceEvent} {task : Task Todo} (ht : e.task? s.mapper = some task) :
    ∃ f : Todo → Option Todo, s.reply? e = some ((s.execute task).1.map f) := by
  cases e with
  | delete id =>
    cases ht
    refine ⟨fun _ => none, congrArg some ?_⟩
    unfold TodoService.delete
    rcases s.execute (Task.delete s.mapper id) with ⟨e | t, after⟩ <;> rfl
  | get id => cases ht
  | list workspace => cases ht
  | failCommits on => cases ht
  | fault call times => cases ht
  | clocks clock now => cases ht
  | wait ms => cases ht
  | fill place pause => cases ht
  | _ =>
    cases ht
    exact ⟨some, rfl⟩

/-- Whether a change counts depends on what is told of it. -/
theorem changes_of_task {e : ServiceEvent} {task : Task Todo} (ht : e.task? s.mapper = some task) :
    (∃ changed, (executed task s.db s.clock).hooks = [changed] ∧
        ∀ w, s.changes w e = decide (w = changed.workspaceId)) ∨
      (executed task s.db s.clock).hooks = [] ∧ ∀ w, s.changes w e = false := by
  obtain ⟨f, reply⟩ := reply?_of_task ht
  have answer := s.execute_fst task
  rcases Work.execute_cases task ServiceError.unitOfWork s.db .never false 0 s.clock with ⟨v, returned⟩ | ⟨stop, stops⟩
  · obtain ⟨changed, hooks, home⟩ := hooks_of_returned ht returned
    refine .inl ⟨changed, hooks, fun w => ?_⟩
    rw [show (executed task s.db s.clock).ending = .returned v from returned] at answer
    rw [changes, reply, answer, home]
    simp [Except.map, eq_comm]
  · obtain ⟨hooks, unreturned⟩ := hooks_of_stops stops
    refine .inr ⟨hooks, fun w => ?_⟩
    rw [changes, reply, answer]
    rcases ending : (executed task s.db s.clock).ending with v | e | m
    · exact absurd ending (unreturned v)
    · rfl
    · rfl

theorem changes_of_no_task {e : ServiceEvent} (ht : e.task? s.mapper = none) (w : WorkspaceId) :
    s.changes w e = false := by
  have nothing : s.reply? e = none := by cases e <;> first | rfl | cases ht
  rw [changes, nothing]

theorem Tallies.after_no_task (h : s.Tallies root count c) {e : ServiceEvent} (ht : e.task? s.mapper = none) :
    ∃ d, (s.after e).Tallies root count d := by
  have ⟨cached, same_root, grounded, store, fills⟩ := h
  cases e with
  | get id => exact h.read (.one id) _ _ _
  | list workspace => exact h.read (.many workspace) _ _ _
  | fill place pause => exact h.doFill place pause
  | failCommits on => exact ⟨c, cached, same_root, grounded, store, fills⟩
  | fault call times => exact ⟨c, cached, same_root, grounded, store, fills⟩
  | clocks clock now => exact ⟨c, cached, same_root, grounded, store, fills⟩
  | wait ms => exact ⟨c, cached, same_root, grounded, store, fills⟩
  | _ => cases ht

theorem Tallies.after (h : s.Tallies root count c) (e : ServiceEvent) :
    ∃ d, (s.after e).Tallies root (fun w => count w + if s.changes w e then 1 else 0) d := by
  cases ht : e.task? s.mapper with
  | none => simpa [changes_of_no_task ht] using h.after_no_task ht
  | some task =>
    rw [after_of_task ht, execute_snd, h.cached]
    obtain ⟨changed, hooks, changes⟩ | ⟨hooks, nothing⟩ := changes_of_task ht
    · obtain ⟨shrinks, flights⟩ := invalidate_leaves s.wall c.aside changed
      have tallies := invalidate_tallies h.same_root h.store s.wall changed
      have counted : (fun w => count w + if s.changes w e then 1 else 0) =
          fun w => count w + if w = changed.workspaceId then 1 else 0 := by
        funext w
        simp [changes]
      rw [hooks, counted, Option.map_some, List.foldl_cons, List.foldl_nil]
      exact ⟨_, rfl, shrinks.root.trans h.same_root, (congrArg SingleFlight.opened flights).trans h.grounded, tallies,
        h.fills⟩
    · have counted : (fun w => count w + if s.changes w e then 1 else 0) = count := by
        funext w
        simp [nothing]
      rw [hooks, counted]
      exact ⟨c, rfl, h.same_root, h.grounded, h.store, h.fills⟩

theorem run_tallies (h : s.Tallies root count c) (history : List ServiceEvent) :
    ∃ d, (s.run history).Tallies root (fun w => count w + s.changesIn w history) d := by
  induction history generalizing s count c with
  | nil => exact ⟨c, by simpa [changesIn, run] using h⟩
  | cons e history ih =>
    obtain ⟨d, after⟩ := h.after e
    obtain ⟨d, later⟩ := ih after
    refine ⟨d, ?_⟩
    have sum : ∀ w, count w + ((s.changesIn w (e :: history) : Nat) : Int) =
        count w + (if s.changes w e then 1 else 0) + ((s.after e).changesIn w history : Int) := by
      intro w
      rw [changesIn]
      split <;> push_cast <;> omega
    simp only [sum]
    exact later

/-- At any moment of a run without faults of the cache, the revision of a workspace is the number of changes of its
to-dos that have succeeded, asking for it changes nothing, and an event moves it only by being such a change. -/
theorem revision_counts_changes (s : TodoService) (root : String) (tagTtl entityTtl queryTtl : Nat)
    (form : BinaryForm Todo) (cached : s.cache = some ⟨.empty root tagTtl, entityTtl, queryTtl, form⟩)
    (no_fills : s.fills = []) (history : List ServiceEvent) (workspace : WorkspaceId) :
    let now := s.run history
    now.revision workspace = (.ok (s.changesIn workspace history), now) ∧
      ∀ e, (now.after e).revision workspace =
        (.ok (s.changesIn workspace history + if now.changes workspace e then 1 else 0), now.after e) := by
  intro now
  have start : s.Tallies root (fun _ => 0) ⟨.empty root tagTtl, entityTtl, queryTtl, form⟩ :=
    ⟨cached, rfl, rfl, MemoryStore.tallies_empty root, by simp [no_fills]⟩
  obtain ⟨c, tallies⟩ := run_tallies start history
  refine ⟨?_, fun e => ?_⟩
  · simpa using tallies.revision workspace
  · obtain ⟨d, later⟩ := tallies.after e
    simpa using later.revision workspace

def garden : WorkspaceId := ⟨⟨10⟩⟩

/-- A to-do is completed twice and deleted; in between, reads are cached, a commit fails, a title is refused, and
something is added in another workspace. -/
def bookkeeping : List ServiceEvent :=
  [.create shop "milk", .get firstTodo, .list shop, .fill 0 0, .fill 0 3, .create garden "seeds", .complete firstTodo,
    .complete firstTodo, .failCommits true, .reopen firstTodo, .failCommits false, .rename firstTodo " ",
    .delete firstTodo, .rename firstTodo "tea"]

theorem revision_counts_changes_bookkeeping :
    ((cachedShop.run bookkeeping).revision shop).1.toOption = some 4 ∧
      ((cachedShop.run bookkeeping).revision garden).1.toOption = some 1 ∧
      (((cachedShop.run bookkeeping).after (.create shop "tea")).revision shop).1.toOption = some 5 := by
  have counts : cachedShop.changesIn shop bookkeeping = 4 ∧ cachedShop.changesIn garden bookkeeping = 1 ∧
      (cachedShop.run bookkeeping).changes shop (.create shop "tea") = true := by decide +kernel
  have counted := revision_counts_changes cachedShop "app" 60000 60000 30000 .todo rfl rfl bookkeeping
  refine ⟨?_, ?_, ?_⟩
  · rw [(counted shop).1, counts.1]
    rfl
  · rw [(counted garden).1, counts.2.1]
    rfl
  · rw [(counted shop).2, counts.1, counts.2.2]
    rfl

end TodoService

end Workboard
