import Workboard.Proofs.Cache.Reading
import Workboard.Proofs.Service.Change
import Workboard.Proofs.Todo.Repository

/-!
What the events of a service do to the stored state: changes execute one task each, and everything else leaves
rows and identifiers as they are.
-/

namespace Workboard

def ServiceEvent.task? (mapper : EventMapper) : ServiceEvent → Option (TodoService.Task Todo)
  | .create workspace title => some (TodoService.Task.create mapper workspace title)
  | .rename id title => some (TodoService.Task.rename mapper id title)
  | .complete id => some (TodoService.Task.complete mapper id)
  | .reopen id => some (TodoService.Task.reopen mapper id)
  | .delete id => some (TodoService.Task.delete mapper id)
  | _ => none

/-- Two moments between which nothing was stored and no identifier drawn. -/
structure Database.Same (before after : Database) : Prop where
  records : after.outbox.records = before.outbox.records
  rows : after.repository.rows = before.repository.rows
  ids : after.ids = before.ids

namespace TodoService

theorem after_of_task {s : TodoService} {e : ServiceEvent} {task : Task Todo}
    (h : e.task? s.mapper = some task) : s.after e = (s.execute task).2 := by
  cases e <;> cases h <;> rfl

/-- A change creates a to-do, makes a new one of a stored one in its workspace, or deletes one. -/
theorem task?_cases {mapper : EventMapper} {e : ServiceEvent} {task : Task Todo} (h : e.task? mapper = some task) :
    (∃ workspace title, e = .create workspace title ∧ task = Task.create mapper workspace title) ∨
    (∃ id change, task = Task.mutate mapper id change ∧
      (∀ db, e.home? db = (db.repository.find? id).map (·.workspaceId)) ∧
      ∀ old now t, change (.restore old) now = .ok t → TrackedTodo.Changes old t) ∨
    ∃ id, e = .delete id ∧ task = Task.delete mapper id := by
  cases e with
  | create workspace title => exact .inl ⟨workspace, title, rfl, (Option.some.inj h).symm⟩
  | rename id title =>
    exact .inr (.inl ⟨id, _, (Option.some.inj h).symm, fun _ => rfl, fun _ _ _ => TrackedTodo.rename_changes⟩)
  | complete id =>
    refine .inr (.inl ⟨id, _, (Option.some.inj h).symm, fun _ => rfl, ?_⟩)
    rintro old now t ⟨⟩
    exact TrackedTodo.complete_changes old now
  | reopen id =>
    refine .inr (.inl ⟨id, _, (Option.some.inj h).symm, fun _ => rfl, ?_⟩)
    rintro old now t ⟨⟩
    exact TrackedTodo.reopen_changes old now
  | delete id => exact .inr (.inr ⟨id, rfl, (Option.some.inj h).symm⟩)
  | _ => cases h

theorem leads_of_task {mapper : EventMapper} {e : ServiceEvent} {task : Task Todo}
    (h : e.task? mapper = some task) (stored : Repository) (ids : IdSupply) :
    LeadsWork task mapper stored ids := by
  rcases task?_cases h with ⟨workspace, title, -, rfl⟩ | ⟨id, change, rfl, -, changes⟩ | ⟨id, -, rfl⟩
  · exact create_leads mapper workspace title stored ids
  · exact mutate_leads mapper id changes stored ids
  · exact delete_leads mapper id stored ids

theorem execute_fst {α : Type} (s : TodoService) (task : Task α) :
    (s.execute task).1 =
      match (executed task s.db s.clock).ending with
      | .returned a => .ok a
      | .failed e => .error e
      | .panicked m => .error (.infrastructure m) := by
  unfold execute executed
  dsimp only
  split <;> simp [*]

/-- Whatever comes of a piece of work, the cache is told of what it has committed. -/
theorem execute_snd {α : Type} (s : TodoService) (task : Task α) :
    (s.execute task).2 = { s with
      db := (executed task s.db s.clock).db
      clock := (executed task s.db s.clock).notes
      cache := s.cache.map fun c =>
        { c with aside := (executed task s.db s.clock).hooks.foldl (invalidate s.wall) c.aside } } := by
  unfold execute
  dsimp only
  split <;> rfl

theorem execute_db {α : Type} (s : TodoService) (task : Task α) :
    (s.execute task).2.db = (executed task s.db s.clock).db := by
  rw [execute_snd]

theorem execute_mapper {α : Type} (s : TodoService) (task : Task α) :
    (s.execute task).2.mapper = s.mapper := by
  rw [execute_snd]

theorem read_same {α : Type} (s : TodoService) (reading : TodoCache → Reading CachedTodos)
    (wrap : α → CachedTodos) (unwrap? : CachedTodos → Option α)
    {fetch : Repository → Except ServiceError α × Repository}
    (keeps : ∀ r, (fetch r).2.rows = r.rows) :
    s.db.Same (s.read reading wrap unwrap? fetch).2.db ∧
      (s.read reading wrap unwrap? fetch).2.mapper = s.mapper := by
  unfold read
  split
  next => exact ⟨⟨rfl, keeps s.db.repository, rfl⟩, rfl⟩
  next c _ =>
    have kept : ∀ r : Repository, r.rows = s.db.repository.rows →
        (wrapped wrap fetch r).2.rows = s.db.repository.rows := fun r h => (keeps r).trans h
    have rows := (reading c).runFrom_source s.wall kept 8 .lookup c.aside rfl
    dsimp only
    split
    · split <;> exact ⟨⟨rfl, rows, rfl⟩, rfl⟩
    · exact ⟨⟨rfl, rows, rfl⟩, rfl⟩
    · exact ⟨⟨rfl, rows, rfl⟩, rfl⟩

theorem fetchOne_rows (id : TodoId) (r : Repository) : (fetchOne id r).2.rows = r.rows := by
  unfold fetchOne Repository.queryGet
  cases r.find? id <;> rfl

theorem fetchMany_rows (workspace : WorkspaceId) (r : Repository) :
    (fetchMany workspace r).2.rows = r.rows := rfl

theorem revision_db (s : TodoService) (workspace : WorkspaceId) : (s.revision workspace).2.db = s.db := by
  unfold revision
  split <;> rfl

theorem after_same {s : TodoService} {e : ServiceEvent} (h : e.task? s.mapper = none) :
    s.db.Same (s.after e).db ∧ (s.after e).mapper = s.mapper := by
  cases e with
  | get id => exact s.read_same _ _ _ (fetchOne_rows id)
  | list workspace => exact s.read_same _ _ _ (fetchMany_rows workspace)
  | failCommits on => exact ⟨⟨rfl, rfl, rfl⟩, rfl⟩
  | fault call times => exact ⟨⟨rfl, rfl, rfl⟩, rfl⟩
  | clocks clock now => exact ⟨⟨rfl, rfl, rfl⟩, rfl⟩
  | wait ms => exact ⟨⟨rfl, rfl, rfl⟩, rfl⟩
  | fill place pause =>
    show s.db.Same (s.doFill place pause).db ∧ (s.doFill place pause).mapper = s.mapper
    unfold doFill
    split <;> exact ⟨⟨rfl, rfl, rfl⟩, rfl⟩
  | _ => cases h

theorem after_extends (s : TodoService) (e : ServiceEvent) : s.db.ids.Extends (s.after e).db.ids := by
  cases h : e.task? s.mapper with
  | none =>
    rw [(after_same h).1.ids]
    exact .refl _
  | some task =>
    rw [after_of_task h, execute_db]
    exact Work.execute_extends _ _ _ _ _ _ _

theorem run_extends (s : TodoService) (history : List ServiceEvent) :
    s.db.ids.Extends (s.run history).db.ids := by
  induction history generalizing s with
  | nil => exact .refl _
  | cons e history ih => exact (s.after_extends e).trans (ih (s.after e))

theorem distinct_run {s : TodoService} (standard : s.db.ids.nth = IdSupply.standardNth) (history : List ServiceEvent)
    (few : (s.run history).db.ids.used ≤ 2 ^ 64) : (s.run history).db.ids.Distinct :=
  IdSupply.distinct_standard ((s.run_extends history).nth.trans standard) few

/-- Stored to-dos have identifiers that were drawn, and no two have the same. -/
structure Proper (db : Database) : Prop where
  drawn : ∀ t ∈ db.repository.rows, ∃ i < db.ids.used, db.ids.nth i = t.id.uuid
  single : (db.repository.rows.map (·.id)).Nodup

theorem proper_of_no_rows {db : Database} (h : db.repository.rows = []) : Proper db :=
  ⟨by simp [h], by simp [h]⟩

theorem Proper.change {s : TodoService} (proper : Proper s.db) {e : ServiceEvent} {task : Task Todo}
    (h : e.task? s.mapper = some task) (distinct : (s.after e).db.ids.Distinct) :
    Change s.mapper s.db (s.after e).db (executed task s.db s.clock).hooks := by
  rw [after_of_task h, execute_db] at distinct ⊢
  refine change_of_leads (leads_of_task h _ _) fun more => ?_
  cases hf : s.db.repository.find? ⟨s.db.ids.fresh.1⟩ with
  | none => rfl
  | some t =>
    obtain ⟨hm, same⟩ := Repository.find?_some hf
    obtain ⟨i, hi, he⟩ := proper.drawn t hm
    have used : s.db.ids.used + 1 ≤ (executed task s.db s.clock).db.ids.used := more.used
    have nth : (executed task s.db s.clock).db.ids.nth = s.db.ids.nth := more.nth
    have clash : s.db.ids.nth i = s.db.ids.nth s.db.ids.used := by rw [he, same]; rfl
    rw [← nth] at clash
    have := distinct i s.db.ids.used (by omega) (by omega) clash
    omega

theorem Change.proper {mapper : EventMapper} {db after : Database} {hooks : List ChangedTodo}
    (h : Change mapper db after hooks) (more : db.ids.Extends after.ids) (proper : Proper db) :
    Proper after := by
  have old : ∀ t ∈ db.repository.rows, ∃ i < after.ids.used, after.ids.nth i = t.id.uuid := by
    intro t ht
    obtain ⟨i, hi, he⟩ := proper.drawn t ht
    exact ⟨i, Nat.lt_of_lt_of_le hi more.used, by rw [more.nth, he]⟩
  have put {t : Todo} (repository : after.repository = db.repository.insert t)
      (drawn : ∃ i < after.ids.used, after.ids.nth i = t.id.uuid) : Proper after := by
    refine ⟨?_, repository ▸ db.repository.nodup_insert t proper.single⟩
    intro u hu
    rw [repository] at hu
    rcases Repository.mem_insert hu with rfl | hu
    · exact drawn
    · exact old u hu
  cases h with
  | nothing _ repository => exact ⟨by rwa [repository], repository ▸ proper.single⟩
  | same t found _ repository => exact put repository (old t (Repository.find?_some found).1)
  | event e rows new _ _ replays repository fresh =>
    cases new with
    | none =>
      refine ⟨?_, repository ▸ db.repository.nodup_erase e.todoId proper.single⟩
      intro u hu
      rw [repository] at hu
      exact old u (Repository.mem_erase hu)
    | some t =>
      refine put repository ?_
      rw [((TodoEvent.replay?_some replays).2.2 t rfl).1]
      cases hf : db.repository.find? e.todoId with
      | none =>
        obtain ⟨he, used⟩ := fresh hf
        exact ⟨db.ids.used, used.used, by rw [more.nth, he]; rfl⟩
      | some v =>
        obtain ⟨hv, hid⟩ := Repository.find?_some hf
        rw [← hid]
        exact old v hv

theorem Proper.after {s : TodoService} (proper : Proper s.db) {e : ServiceEvent}
    (distinct : (s.after e).db.ids.Distinct) : Proper (s.after e).db := by
  cases h : e.task? s.mapper with
  | none =>
    obtain ⟨-, rows, ids⟩ := (after_same h).1
    exact ⟨by rw [rows, ids]; exact proper.drawn, rows ▸ proper.single⟩
  | some task => exact (proper.change h distinct).proper (s.after_extends e) proper

theorem after_mapper (s : TodoService) (e : ServiceEvent) : (s.after e).mapper = s.mapper := by
  cases h : e.task? s.mapper with
  | none => exact (after_same h).2
  | some task => rw [after_of_task h, execute_mapper]

end TodoService

end Workboard
