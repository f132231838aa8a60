import Workboard.Http.Access
import Workboard.Proofs.Service.Homes
import Workboard.Proofs.Work.Looking

/-!
What a service answers when some to-dos cannot be seen. Their titles, times and states change no answer but those
about themselves.
-/

namespace Workboard

open CachedTodos

/-- In lists that are alike entry by entry, what is looked for is found in both or in none. -/
theorem find?_alike {α β : Type} {R : α → β → Prop} {p : α → Bool} {q : β → Bool} {l : List α} {m : List β}
    (h : List.Forall₂ R l m) (agree : ∀ a b, R a b → q b = p a) :
    l.find? p = none ∧ m.find? q = none ∨ ∃ a b, l.find? p = some a ∧ m.find? q = some b ∧ R a b := by
  induction h with
  | nil => exact .inl ⟨rfl, rfl⟩
  | @cons a b l m alike _ ih =>
    rcases hit : p a with _ | _
    · simpa [List.find?_cons, hit, agree a b alike] using ih
    · exact .inr ⟨a, b, by simp [hit], by simp [hit, agree a b alike], alike⟩

variable {sees : WorkspaceId → Prop}

namespace Todo

theorem LooksAs.id_eq {t u : Todo} (h : t.LooksAs sees u) : u.id = t.id := by
  rcases h with rfl | ⟨same, -⟩
  · rfl
  · exact same

theorem LooksAs.workspace_eq {t u : Todo} (h : t.LooksAs sees u) : u.workspaceId = t.workspaceId := by
  rcases h with rfl | ⟨-, same, -⟩
  · rfl
  · exact same

theorem LooksAs.eq {t u : Todo} (h : t.LooksAs sees u) (seen : sees t.workspaceId) : u = t :=
  h.resolve_right fun unseen => unseen.2.2 seen

theorem filter_looksAs {rows rows' : List Todo} (h : List.Forall₂ (LooksAs sees) rows rows') {workspace : WorkspaceId}
    (seen : sees workspace) :
    (rows'.filter fun t => t.workspaceId = workspace) = rows.filter fun t => t.workspaceId = workspace := by
  induction h with
  | nil => rfl
  | @cons t u rows rows' alike _ ih =>
    by_cases own : t.workspaceId = workspace
    · obtain rfl := alike.eq (own ▸ seen)
      simp [own, ih]
    · have other : u.workspaceId ≠ workspace := alike.workspace_eq ▸ own
      simp [own, other, ih]

end Todo

namespace Repository

variable {r r' : Repository}

theorem find?_looksAs (h : List.Forall₂ (Todo.LooksAs sees) r.rows r'.rows) (id : TodoId) :
    r.find? id = none ∧ r'.find? id = none ∨
      ∃ t u, r.find? id = some t ∧ r'.find? id = some u ∧ t.LooksAs sees u :=
  find?_alike h fun t u alike => by rw [alike.id_eq]

theorem inWorkspace_looksAs (h : List.Forall₂ (Todo.LooksAs sees) r.rows r'.rows) {workspace : WorkspaceId}
    (seen : sees workspace) : r'.inWorkspace workspace = r.inWorkspace workspace := by
  rw [inWorkspace, inWorkspace, Todo.filter_looksAs h seen]

end Repository

namespace MemoryStore

theorem check_over (s : MemoryStore) (values : Entries (Expiring Bytes)) (call : CacheCall) :
    ({ s with values := values }.check call).1 = (s.check call).1 := by
  unfold check
  dsimp only
  split
  · rfl
  · split <;> rfl

theorem counter_fst (s : MemoryStore) (key : String) :
    (s.counter key).1 = (s.check .counter).1.map fun _ => s.count key := by
  have counters : (s.check .counter).2.counters = s.counters := by
    unfold check
    grind
  unfold counter guarded
  rcases checked : s.check .counter with ⟨e | ⟨⟩, t⟩
  · rfl
  · rw [checked] at counters
    dsimp only at *
    rw [count, count, counters]
    rfl

end MemoryStore

namespace TodoCache

/-- A cache with other copies in it. -/
def withCopies (c : TodoCache) (copies : Entries (Expiring Bytes)) : TodoCache :=
  { c with aside := { c.aside with store := { c.aside.store with values := copies } } }

variable {c : TodoCache} {copies : Entries (Expiring Bytes)}

theorem live_looksAs (h : List.Forall₂ (c.LooksAs sees) c.aside.store.values copies) (now : Nat) (key : String) :
    (c.withCopies copies).aside.store.live now key = c.aside.store.live now key ∨
      ∃ v w, c.aside.store.live now key = some v ∧ (c.withCopies copies).aside.store.live now key = some w ∧
        ((∃ id t u, key = c.aside.fullKey (todoKey id) ∧ (oneCodec c.form).decode v = .ok (.one t) ∧
          (oneCodec c.form).decode w = .ok (.one u) ∧ t.LooksAs sees u) ∨
        ∃ workspace, key = c.aside.fullKey (listKey workspace) ∧ ¬ sees workspace) := by
  rcases find?_alike h (p := fun e => e.1 = key) (q := fun e => e.1 = key)
    (fun a b alike => by rw [alike.1]) with ⟨none_here, none_there⟩ | ⟨a, b, here, there, same_key, expires, alike⟩
  · left
    simp [MemoryStore.live, Entries.get?, withCopies, none_here, none_there]
  · have own : a.1 = key := by simpa using List.find?_some here
    have first : c.aside.store.live now key = if now < a.2.expires then some a.2.content else none := by
      simp [MemoryStore.live, Entries.get?, here]
    have second : (c.withCopies copies).aside.store.live now key =
        if now < a.2.expires then some b.2.content else none := by
      simp [MemoryStore.live, Entries.get?, withCopies, there, expires]
    rw [own] at alike
    rw [first, second]
    by_cases alive : now < a.2.expires
    · simp only [alive, if_true]
      rcases alike with same | others
      · exact .inl (congrArg some same)
      · exact .inr ⟨_, _, rfl, rfl, others⟩
    · simp [alive]

theorem get_looksAs (h : List.Forall₂ (c.LooksAs sees) c.aside.store.values copies) (now : Nat) (key : String) :
    ((c.withCopies copies).aside.store.get now key).1 = (c.aside.store.get now key).1 ∨
      ∃ v w, (c.aside.store.get now key).1 = .ok (some v) ∧
        ((c.withCopies copies).aside.store.get now key).1 = .ok (some w) ∧
        ((∃ id t u, key = c.aside.fullKey (todoKey id) ∧ (oneCodec c.form).decode v = .ok (.one t) ∧
          (oneCodec c.form).decode w = .ok (.one u) ∧ t.LooksAs sees u) ∨
        ∃ workspace, key = c.aside.fullKey (listKey workspace) ∧ ¬ sees workspace) := by
  have checks : ((c.withCopies copies).aside.store.check .get).1 = (c.aside.store.check .get).1 :=
    MemoryStore.check_over _ _ _
  rw [MemoryStore.get_fst, MemoryStore.get_fst, checks]
  rcases (c.aside.store.check .get).1 with e | ⟨⟩
  · exact .inl rfl
  · rcases live_looksAs h now key with same | ⟨v, w, here, there, others⟩
    · exact .inl (by rw [same])
    · exact .inr ⟨v, w, by rw [here]; rfl, by rw [there]; rfl, others⟩

theorem lookup_one (h : List.Forall₂ (c.LooksAs sees) c.aside.store.values copies) (now : Nat) (id : TodoId) :
    (((TodoQuestion.one id).reading (c.withCopies copies)).lookup now (c.withCopies copies).aside).1 =
        (((TodoQuestion.one id).reading c).lookup now c.aside).1 ∨
      ∃ t u, (((TodoQuestion.one id).reading c).lookup now c.aside).1 = some (.one t) ∧
        (((TodoQuestion.one id).reading (c.withCopies copies)).lookup now (c.withCopies copies).aside).1 =
          some (.one u) ∧ t.LooksAs sees u := by
  rcases get_looksAs h now (c.aside.fullKey (todoKey id)) with same | ⟨v, w, here, there, others⟩
  · exact .inl (Reading.lookup_congr same)
  · rcases others with ⟨_, t, u, -, decoded, decoded', alike⟩ | ⟨workspace, key, -⟩
    · exact .inr ⟨t, u, Reading.lookup_found here decoded, Reading.lookup_found there decoded', alike⟩
    · have same : TodoQuestion.one id = .many workspace := TodoQuestion.key_injective (CacheKey.full_injective key)
      cases same

theorem lookup_many (h : List.Forall₂ (c.LooksAs sees) c.aside.store.values copies) (now : Nat)
    {workspace : WorkspaceId} (seen : sees workspace) :
    (((TodoQuestion.many workspace).reading (c.withCopies copies)).lookup now (c.withCopies copies).aside).1 =
      (((TodoQuestion.many workspace).reading c).lookup now c.aside).1 := by
  rcases get_looksAs h now (c.aside.fullKey (listKey workspace)) with same | ⟨v, w, here, there, others⟩
  · exact Reading.lookup_congr same
  · rcases others with ⟨id, t, u, key, -⟩ | ⟨other, key, unseen⟩
    · have same : TodoQuestion.many workspace = .one id := TodoQuestion.key_injective (CacheKey.full_injective key)
      cases same
    · have same : TodoQuestion.many workspace = .many other := TodoQuestion.key_injective (CacheKey.full_injective key)
      cases same
      exact absurd seen unseen

end TodoCache

namespace TodoService

variable {s : TodoService} {c : TodoCache} {home : TodoId → WorkspaceId} {rows : List Todo}
  {copies : Entries (Expiring Bytes)}

theorem fetchOne_ok {id : TodoId} {r : Repository} {t : Todo} :
    (fetchOne id r).1 = .ok t ↔ r.find? id = some t := by
  unfold fetchOne Repository.queryGet
  cases r.find? id <;> simp

/-- The to-do that is answered is the one that was asked for, in its home. -/
theorem Housed.get (h : s.Housed home) {id : TodoId} {t : Todo} (answer : (s.get id).1 = .ok t) :
    t.id = id ∧ t.workspaceId = home id := by
  have stored (found : s.db.repository.find? id = some t) : t.id = id ∧ t.workspaceId = home id := by
    obtain ⟨mem, rfl⟩ := Repository.find?_some found
    exact ⟨rfl, (h.rows t mem).1⟩
  rw [get_eq_read] at answer
  rcases cached : s.cache with _ | c
  · rw [TodoService.read, cached] at answer
    exact stored (fetchOne_ok.mp answer)
  · have housed := h.cache c cached
    rw [read_fst (asks_one id) cached housed.grounded] at answer
    rcases looked : ((TodoQuestion.one id).reading c |>.lookup s.wall c.aside).1 with _ | v <;>
      rw [looked] at answer
    · exact stored (fetchOne_ok.mp answer)
    · obtain ⟨copy, found, decoded⟩ := Reading.lookup_some looked
      cases v with
      | many ts => cases answer
      | one u =>
        obtain rfl := Except.ok.inj answer
        obtain ⟨own, here, -⟩ := housed.copies id copy found u decoded
        exact ⟨own, own ▸ here⟩

theorem fetchOne_unseen {r r' : Repository} (h : List.Forall₂ (Todo.LooksAs sees) r.rows r'.rows) (id : TodoId) :
    (fetchOne id r').1 = (fetchOne id r).1 ∨
      ∃ t u, (fetchOne id r).1 = .ok t ∧ (fetchOne id r').1 = .ok u ∧ t.LooksAs sees u := by
  unfold fetchOne Repository.queryGet
  rcases Repository.find?_looksAs h id with ⟨none_here, none_there⟩ | ⟨t, u, here, there, alike⟩
  · simp [none_here, none_there]
  · simp only [here, there]
    exact .inr ⟨t, u, rfl, rfl, alike⟩

theorem cache_withTodos (s : TodoService) (rows : List Todo) (copies : Entries (Expiring Bytes))
    (fills : List (Fill CachedTodos)) :
    (s.withTodos rows copies fills).cache = s.cache.map (·.withCopies copies) := rfl

theorem DifferUnseen.alike (h : s.DifferUnseen sees rows copies) (fills : List (Fill CachedTodos)) :
    List.Forall₂ (Todo.LooksAs sees) s.db.repository.rows (s.withTodos rows copies fills).db.repository.rows := h.rows

theorem Housed.get_unseen (h : s.Housed home) (differ : s.DifferUnseen sees rows copies)
    (fills : List (Fill CachedTodos)) (id : TodoId) :
    ((s.withTodos rows copies fills).get id).1 = (s.get id).1 ∨
      ∃ t u, (s.get id).1 = .ok t ∧ ((s.withTodos rows copies fills).get id).1 = .ok u ∧ t.LooksAs sees u := by
  have fetched := fetchOne_unseen (differ.alike fills) id
  rw [get_eq_read, get_eq_read]
  have caches := s.cache_withTodos rows copies fills
  rcases cached : s.cache with _ | c <;> rw [cached] at caches
  · rw [TodoService.read, TodoService.read, cached, caches]
    exact fetched
  · have grounded := (h.cache c cached).grounded
    rw [read_fst (asks_one id) cached grounded, read_fst (asks_one id) caches grounded]
    rw [show (s.withTodos rows copies fills).wall = s.wall from rfl]
    rcases TodoCache.lookup_one (differ.copies c cached) s.wall id with same | ⟨t, u, here, there, alike⟩
    · rw [same]
      rcases (((TodoQuestion.one id).reading c).lookup s.wall c.aside).1 with _ | v
      · exact fetched
      · exact .inl rfl
    · rw [here, there]
      exact .inr ⟨t, u, rfl, rfl, alike⟩

theorem Housed.list_unseen (h : s.Housed home) (differ : s.DifferUnseen sees rows copies)
    (fills : List (Fill CachedTodos)) {workspace : WorkspaceId} (seen : sees workspace) :
    ((s.withTodos rows copies fills).list workspace).1 = (s.list workspace).1 := by
  have fetched : ((fetchMany workspace (s.withTodos rows copies fills).db.repository).1) =
      (fetchMany workspace s.db.repository).1 := by
    have same := Repository.inWorkspace_looksAs (differ.alike fills) seen
    exact congrArg Except.ok same
  rw [list_eq_read, list_eq_read]
  have caches := s.cache_withTodos rows copies fills
  rcases cached : s.cache with _ | c <;> rw [cached] at caches
  · rw [TodoService.read, TodoService.read, cached, caches]
    exact fetched
  · have grounded := (h.cache c cached).grounded
    rw [read_fst (asks_many workspace) cached grounded, read_fst (asks_many workspace) caches grounded]
    rw [show (s.withTodos rows copies fills).wall = s.wall from rfl,
      TodoCache.lookup_many (differ.copies c cached) s.wall seen, fetched]

theorem revision_unseen (s : TodoService) (rows : List Todo) (copies : Entries (Expiring Bytes))
    (fills : List (Fill CachedTodos)) (workspace : WorkspaceId) :
    ((s.withTodos rows copies fills).revision workspace).1 = (s.revision workspace).1 := by
  unfold TodoService.revision
  rw [cache_withTodos]
  rcases s.cache with _ | c
  · rfl
  · have checks : ((c.withCopies copies).aside.store.check .counter).1 = (c.aside.store.check .counter).1 :=
      MemoryStore.check_over _ _ _
    dsimp only [Option.map_some, CacheAside.revision]
    rw [MemoryStore.counter_fst, MemoryStore.counter_fst, checks]
    rfl

/-- Of services that differ in rows, and in those not where work looks, the work gets the same answer. -/
theorem execute_alike {α : Type} {s t : TodoService} {r : Repository} (db : t.db = { s.db with repository := r })
    (clock : t.clock = s.clock) {ids : List TodoId} {task : Task α} (looks : task.LooksOnlyAt ids)
    (same : ∀ id ∈ ids, r.find? id = s.db.repository.find? id) : (t.execute task).1 = (s.execute task).1 := by
  have ending : (executed task t.db t.clock).ending = (executed task s.db s.clock).ending := by
    rw [db, clock]
    exact Work.execute_ending looks .unitOfWork s.db same .never false 0 s.clock
  rw [execute_fst, execute_fst, ending]

/-- Reading leaves all but the cache, its fills and the count of queries as it was. -/
theorem get_rest (s : TodoService) (id : TodoId) :
    (s.get id).2.clock = s.clock ∧ (s.get id).2.mapper = s.mapper ∧
      ∃ r : Repository, (s.get id).2.db = { s.db with repository := r } ∧ r.rows = s.db.repository.rows := by
  have rows : (s.get id).2.db.repository.rows = s.db.repository.rows := (s.read_same _ _ _ (fetchOne_rows id)).1.rows
  rw [get_eq_read, read_snd] at *
  rcases cached : s.cache with _ | c <;> rw [cached] at rows
  · exact ⟨rfl, rfl, _, rfl, rows⟩
  · exact ⟨rfl, rfl, _, rfl, rows⟩

theorem Housed.execute_unseen {α : Type} (h : s.Housed home) (differ : s.DifferUnseen sees rows copies)
    (fills : List (Fill CachedTodos)) {id : TodoId} {t : Todo} (answer : (s.get id).1 = .ok t)
    (seen : sees t.workspaceId) {task : EventMapper → Task α} (looks : ∀ mapper, (task mapper).LooksOnlyAt [t.id]) :
    (((s.withTodos rows copies fills).get id).2.execute (task ((s.withTodos rows copies fills).get id).2.mapper)).1 =
      ((s.get id).2.execute (task (s.get id).2.mapper)).1 := by
  obtain ⟨clock, mapper, r, db, kept⟩ := s.get_rest id
  obtain ⟨clock', mapper', r', db', kept'⟩ := (s.withTodos rows copies fills).get_rest id
  obtain ⟨own, here⟩ := h.get answer
  rw [mapper, mapper']
  refine execute_alike (r := r') ?_ (clock'.trans clock.symm) (looks s.mapper) ?_
  · rw [db, db']
    rfl
  · intro asked mem
    obtain rfl := List.mem_singleton.mp mem
    rw [db, Repository.find?_congr kept, Repository.find?_congr kept']
    rcases Repository.find?_looksAs (differ.alike fills) t.id with
      ⟨none_here, none_there⟩ | ⟨a, b, found, found', alike⟩
    · rw [none_here, none_there]
    · obtain ⟨mem, same⟩ := Repository.find?_some found
      have place : a.workspaceId = t.workspaceId := by rw [(h.rows a mem).1, same, own, here]
      rw [found, found', alike.eq (place ▸ seen)]

theorem create_unseen (s : TodoService) (rows : List Todo) (copies : Entries (Expiring Bytes))
    (fills : List (Fill CachedTodos)) (workspace : WorkspaceId) (title : String) :
    ((s.withTodos rows copies fills).create workspace title).1 = (s.create workspace title).1 :=
  execute_alike (s := s) (t := s.withTodos rows copies fills) rfl rfl (Task.create_looks s.mapper workspace title)
    (by simp)

end TodoService

end Workboard
