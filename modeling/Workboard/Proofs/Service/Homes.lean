import Workboard.Proofs.Service.Remembered

/-!
Where to-dos are. Whichever calls of the cache's store fail, what is cached of a to-do is of its workspace, which stays
the same for as long as there is anything of the to-do.
-/

namespace Workboard

open CachedTodos

/-- A to-do whose identifier was drawn, in the workspace that is its home. -/
def Todo.Dwells (home : TodoId → WorkspaceId) (ids : IdSupply) (t : Todo) : Prop :=
  t.workspaceId = home t.id ∧ ∃ i < ids.used, ids.nth i = t.id.uuid

variable {home home' : TodoId → WorkspaceId} {ids ids' : IdSupply}

theorem Todo.Dwells.mono {t : Todo} (h : t.Dwells home ids) (more : ids.Extends ids') : t.Dwells home ids' := by
  obtain ⟨here, i, drawn, own⟩ := h
  exact ⟨here, i, Nat.lt_of_lt_of_le drawn more.used, more.nth ▸ own⟩

namespace TodoCache

/-- If a to-do can be read from bytes, it has the identifier that is asked for, and is in its home. -/
def Holds (c : TodoCache) (home : TodoId → WorkspaceId) (ids : IdSupply) (id : TodoId) (bytes : Bytes) : Prop :=
  ∀ t, (oneCodec c.form).decode bytes = .ok (.one t) → t.id = id ∧ t.Dwells home ids

/-- What is cached of to-dos, and what fills will put there, is of their homes. -/
structure Housed (home : TodoId → WorkspaceId) (ids : IdSupply) (fills : List (Fill CachedTodos)) (c : TodoCache) :
    Prop where
  whole : ∀ t, c.form.whole? (c.form.write t) = some t.asWritten
  grounded : c.aside.flights.opened = []
  copies : ∀ id v, c.aside.store.values.get? (c.aside.fullKey (todoKey id)) = some v →
    c.Holds home ids id v.content
  fills : ∀ f ∈ fills, ∀ id bytes, f.key = c.aside.fullKey (todoKey id) →
    f.codec.encode f.value = .ok bytes → c.Holds home ids id bytes

/-- An answer about one to-do is that to-do, in its home. -/
def AtHome (home : TodoId → WorkspaceId) (ids : IdSupply) (q : TodoQuestion) (v : CachedTodos) : Prop :=
  ∀ id t, q = .one id → v = .one t → t.id = id ∧ t.Dwells home ids

/-- What the text of an answer names is of the same home. -/
theorem AtHome.told {q : TodoQuestion} {v u : CachedTodos} (h : AtHome home ids q v) (told : u = v ∨ u = v.asWritten) :
    AtHome home ids q u := by
  rcases told with rfl | rfl
  · exact h
  · rcases v with t | ts
    · rintro id _ asked ⟨⟩
      exact h id t asked rfl
    · rintro id t asked ⟨⟩

theorem housed_iff {c : TodoCache} {fills : List (Fill CachedTodos)} :
    c.Housed home ids fills ↔ c.Remembers (AtHome home ids) fills := by
  constructor
  · intro h
    refine ⟨h.whole, h.grounded, ?_, ?_⟩
    · rintro key v found q a own decoded
      refine ⟨a, ?_, .inl rfl⟩
      rintro id t rfl rfl
      exact h.copies id v (own ▸ found) t decoded
    · rintro f mem bytes encoded q a own decoded
      refine ⟨a, ?_, .inl rfl⟩
      rintro id t rfl rfl
      exact h.fills f mem id bytes own encoded t decoded
  · intro h
    refine ⟨h.whole, h.grounded, ?_, ?_⟩
    · intro id v found t decoded
      obtain ⟨u, home, told⟩ := h.copies _ v found (.one id) _ rfl decoded
      exact home.told told id t rfl rfl
    · intro f mem id bytes own encoded t decoded
      obtain ⟨u, home, told⟩ := h.fills f mem bytes encoded (.one id) _ own decoded
      exact home.told told id t rfl rfl

end TodoCache

namespace TodoService

/-- Stored to-dos and what is cached of them are in one workspace each, and identifiers that were not drawn are free. -/
structure Housed (home : TodoId → WorkspaceId) (s : TodoService) : Prop where
  rows : ∀ t ∈ s.db.repository.rows, t.Dwells home s.db.ids
  single : (s.db.repository.rows.map (·.id)).Nodup
  cache : ∀ c, s.cache = some c → c.Housed home s.db.ids s.fills

variable {s : TodoService}

theorem Housed.proper (h : s.Housed home) : Proper s.db := ⟨fun t mem => (h.rows t mem).2, h.single⟩

theorem atHome_of_rows {r : Repository} (rows : ∀ t ∈ r.rows, t.Dwells home ids) (q : TodoQuestion) (v : CachedTodos)
    (workspace : WorkspaceId) (answer : q.answer? r = some (v, workspace)) : TodoCache.AtHome home ids q v := by
  rintro id t rfl rfl
  obtain ⟨row, found, same⟩ := Option.map_eq_some_iff.mp answer
  cases same
  obtain ⟨mem, own⟩ := Repository.find?_some found
  exact ⟨own, rows t mem⟩

theorem Housed.remembers (h : s.Housed home) : s.Remembers (TodoCache.AtHome home s.db.ids) :=
  ⟨atHome_of_rows h.rows, fun c cached => TodoCache.housed_iff.mp (h.cache c cached)⟩

/-- A service later on, with the same rows and with nothing in its cache but what is of the homes of to-dos. -/
theorem Housed.later (h : s.Housed home) {t : TodoService} (same : s.db.Same t.db)
    (remembers : t.Remembers (TodoCache.AtHome home s.db.ids)) : t.Housed home := by
  refine ⟨?_, same.rows ▸ h.single, fun c cached => ?_⟩
  · rw [same.rows, same.ids]
    exact h.rows
  · rw [same.ids]
    exact TodoCache.housed_iff.mpr (remembers.cache c cached)

/-- A change leaves to-dos where they are; a new one finds a home. -/
theorem Change.homes {mapper : EventMapper} {db after : Database} {hooks : List ChangedTodo}
    (h : Change mapper db after hooks) (more : db.ids.Extends after.ids)
    (distinct : after.ids.Distinct) (rows : ∀ t ∈ db.repository.rows, t.Dwells home db.ids) :
    ∃ home', (∀ t : Todo, t.Dwells home db.ids → t.Dwells home' after.ids) ∧
      ∀ t ∈ after.repository.rows, t.Dwells home' after.ids := by
  have stay : ∀ t : Todo, t.Dwells home db.ids → t.Dwells home after.ids := fun t dwells => dwells.mono more
  cases h with
  | nothing _ repository => exact ⟨home, stay, fun t mem => stay t (rows t (repository ▸ mem))⟩
  | same t found _ repository =>
    refine ⟨home, stay, fun u mem => stay u (rows u ?_)⟩
    rw [repository] at mem
    rcases Repository.mem_insert mem with rfl | old
    · exact (Repository.find?_some found).1
    · exact old
  | event e written new _ _ replays repository fresh =>
    obtain ⟨-, before, named⟩ := TodoEvent.replay?_some replays
    cases new with
    | none =>
      refine ⟨home, stay, fun u mem => stay u (rows u ?_)⟩
      rw [repository] at mem
      exact Repository.mem_erase mem
    | some t =>
      obtain ⟨same_id, same_workspace⟩ := named t rfl
      have put {h : TodoId → WorkspaceId} (stay : ∀ u : Todo, u.Dwells home db.ids → u.Dwells h after.ids)
          (own : t.Dwells h after.ids) : ∃ home', (∀ u : Todo, u.Dwells home db.ids → u.Dwells home' after.ids) ∧
            ∀ u ∈ after.repository.rows, u.Dwells home' after.ids := by
        refine ⟨h, stay, fun u mem => ?_⟩
        rw [repository] at mem
        rcases Repository.mem_insert mem with rfl | old
        · exact own
        · exact stay u (rows u old)
      rcases found : db.repository.find? e.todoId with _ | old
      · obtain ⟨drawn, used⟩ := fresh found
        have here : db.ids.used < after.ids.used := used.used
        refine put (h := fun id => if id = e.todoId then e.workspaceId else home id) ?_ ?_
        · rintro u ⟨at_home, i, hi, own⟩
          have other : u.id ≠ e.todoId := by
            intro same
            rw [same, drawn] at own
            have clash : after.ids.nth i = after.ids.nth db.ids.used := more.nth ▸ own
            have := distinct i db.ids.used (by omega) here clash
            omega
          exact ⟨by simp [other, at_home], i, by omega, more.nth ▸ own⟩
        · exact ⟨by simp [same_id, same_workspace], db.ids.used, here, by rw [more.nth, same_id, drawn]; rfl⟩
      · obtain ⟨old_id, old_workspace⟩ := before old found
        obtain ⟨at_home, drawn⟩ := stay old (rows old (Repository.find?_some found).1)
        rw [old_id] at at_home drawn
        exact put stay ⟨by rw [same_workspace, same_id, ← at_home, old_workspace], same_id ▸ drawn⟩

/-- A task that changes what is stored leaves to-dos in their homes. -/
theorem Housed.task (h : s.Housed home) {e : ServiceEvent} {task : Task Todo} (ht : e.task? s.mapper = some task)
    (distinct : (s.after e).db.ids.Distinct) : ∃ home', (s.after e).Housed home' := by
  have change := h.proper.change ht distinct
  have more := s.after_extends e
  obtain ⟨home', stay, rows⟩ := change.homes more distinct h.rows
  have moved : ∀ q v, TodoCache.AtHome home s.db.ids q v → TodoCache.AtHome home' (s.after e).db.ids q v := by
    intro q v kept id t asked given
    obtain ⟨own, dwells⟩ := kept id t asked given
    exact ⟨own, stay t dwells⟩
  have remembers := (h.remembers.mono moved).after e (atHome_of_rows rows)
  exact ⟨home', rows, (change.proper more h.proper).single,
    fun c cached => TodoCache.housed_iff.mpr (remembers.cache c cached)⟩

theorem Housed.onStore (h : s.Housed home) {f : MemoryStore → MemoryStore} (same : ∀ m, (f m).values = m.values) :
    (s.onStore f).Housed home :=
  h.later ⟨rfl, rfl, rfl⟩ (h.remembers.onStore same)

theorem Housed.revision (h : s.Housed home) (workspace : WorkspaceId) : (s.revision workspace).2.Housed home := by
  refine h.later ?_ (h.remembers.revision workspace)
  rw [revision_db]
  exact ⟨rfl, rfl, rfl⟩

/-- Where to-dos are at some moment, as long as all identifiers drawn so far differ. -/
def Lodged (s : TodoService) : Prop := s.db.ids.Distinct → ∃ home, s.Housed home

theorem Lodged.after (h : s.Lodged) (e : ServiceEvent) : (s.after e).Lodged := by
  intro distinct
  obtain ⟨home, housed⟩ := h ((s.after_extends e).distinct distinct)
  cases ht : e.task? s.mapper with
  | some task => exact housed.task ht distinct
  | none =>
    have same := (after_same ht).1
    have rows : ∀ t ∈ (s.after e).db.repository.rows, t.Dwells home s.db.ids := same.rows ▸ housed.rows
    exact ⟨home, housed.later same (housed.remembers.after e (atHome_of_rows rows))⟩

end TodoService

end Workboard
