import Workboard.Service.History
import Workboard.Proofs.Todo.Replay
import Workboard.Proofs.Todo.Repository
import Workboard.Proofs.Work.Commit

/-!
What a change to a to-do commits. Either nothing is stored and nothing is told to the cache, or the row is
stored together with the row of its one event.
-/

namespace Workboard.TodoService

def Mapped (mapper : EventMapper) (e : TodoEvent) (rows : List NewRecord) : Prop :=
  ∃ m, mapper e = .ok m ∧
    rows.map (fun r => (r.aggregateId, r.payload)) = m.toList.map fun m => (e.todoId.uuid, m.payload)

/-- What the execution of a change has done to the stored state, and what is told of it to the cache. -/
inductive Change (mapper : EventMapper) (db after : Database) : List ChangedTodo → Prop
  | nothing : after.outbox.records = db.outbox.records → after.repository = db.repository →
      Change mapper db after []
  | same (t : Todo) : db.repository.find? t.id = some t →
      after.outbox.records = db.outbox.records → after.repository = db.repository.insert t →
      Change mapper db after [⟨t.id, t.workspaceId⟩]
  /-- An event was written, and its effect was stored. A new to-do has an identifier that was drawn for it. -/
  | event (e : TodoEvent) (rows : List NewRecord) (new : Option Todo) :
      after.outbox.records = db.outbox.records ++ rows.map .ofNew → Mapped mapper e rows →
      e.replay? (db.repository.find? e.todoId) = some new →
      after.repository = (match new with
        | some t => db.repository.insert t
        | none => db.repository.erase e.todoId) →
      (db.repository.find? e.todoId = none →
        e.todoId.uuid = db.ids.fresh.1 ∧ db.ids.fresh.2.Extends after.ids) →
      Change mapper db after [⟨e.todoId, e.workspaceId⟩]

def gathered (mapper : EventMapper) (t : TrackedTodo) : List Collected :=
  if t.pending.isEmpty then [] else [⟨TrackedTodo.kind, t.todo.id.uuid, t.pending, mapper⟩]

/-- The scope of a transaction that stages one write for a to-do and tells the cache of it. -/
def scopeOf (mapper : EventMapper) (t : TrackedTodo) (write : RowWrite) : Scope ChangedTodo :=
  ⟨⟨[], [], [.row write], []⟩, gathered mapper t, [⟨t.todo.id, t.todo.workspaceId⟩]⟩

/-- Work has come to hold a new to-do with an identifier that was drawn for it, a changed one, or the deletion
of one, together with all that leads to it. -/
inductive Leads (mapper : EventMapper) (stored : Repository) (ids : IdSupply)
    (q : Progress SteppingClock ChangedTodo) : Prop
  | created (t : TrackedTodo) : q.scope = scopeOf mapper t (.put t.todo) → t.LeadsFrom none →
      t.todo.id = ⟨ids.fresh.1⟩ → ids.fresh.2.Extends q.db.ids → Leads mapper stored ids q
  | saved (t : TrackedTodo) (old : Todo) : q.scope = scopeOf mapper t (.put t.todo) →
      stored.find? t.todo.id = some old → t.LeadsFrom (some old) → Leads mapper stored ids q
  | deleted (t : TrackedTodo) (e : TodoEvent) : q.scope = scopeOf mapper t (.remove t.todo.id) →
      t.pending = [e] → e.todoId = t.todo.id → e.workspaceId = t.todo.workspaceId →
      e.replay? (stored.find? t.todo.id) = some none → Leads mapper stored ids q

/-- However it is run, the work leads from what is stored to what it stages, if it returns a value. -/
def LeadsWork {α : Type} (task : Task α) (mapper : EventMapper) (stored : Repository)
    (ids : IdSupply) : Prop :=
  ∀ p : Progress SteppingClock ChangedTodo, p.scope = .empty → p.db.repository = stored →
    p.db.ids = ids → ∀ v q, task.run p = (.ended (.returned v), q) → Leads mapper stored ids q

theorem collect_empty (mapper : EventMapper) (t : TrackedTodo) :
    ((Scope.empty : Scope ChangedTodo).collect mapper t).1.todo = t.todo ∧
      ((Scope.empty : Scope ChangedTodo).collect mapper t).2 = ⟨.empty, gathered mapper t, []⟩ := by
  simp only [Scope.collect, gathered, TrackedTodo.takeEvents, TrackedTodo.pending, Journal.take,
    Journal.pending]
  by_cases none_pending : t.journal.events.isEmpty = true
  · simp [none_pending]
    rfl
  · simp [none_pending]
    exact ⟨rfl, rfl, rfl⟩

theorem run_save {mapper : EventMapper} {t : TrackedTodo} {p q : Progress SteppingClock ChangedTodo}
    {v : Todo} (empty : p.scope = .empty)
    (h : ((Work.save mapper t).bind Task.changed : Task Todo).run p = (.ended (.returned v), q)) :
    q.scope = scopeOf mapper t (.put t.todo) ∧ q.db = p.db := by
  obtain ⟨same, scope⟩ := collect_empty mapper t
  simp only [Work.save, Work.bind, Work.give, Work.run, Task.changed, empty] at h
  cases h
  simp only [scope, same]
  exact ⟨rfl, trivial⟩

theorem run_delete {mapper : EventMapper} {t : TrackedTodo}
    {p q : Progress SteppingClock ChangedTodo} {v : Todo} (empty : p.scope = .empty)
    (h : ((Work.delete mapper t).bind Task.changed : Task Todo).run p = (.ended (.returned v), q)) :
    q.scope = scopeOf mapper t (.remove t.todo.id) := by
  obtain ⟨same, scope⟩ := collect_empty mapper t
  simp only [Work.delete, Work.bind, Work.give, Work.run, Task.changed, empty] at h
  cases h
  simp only [scope, same]
  rfl

theorem ofExcept_refused {α : Type} (e : DomainError) :
    (Work.ofExcept ((Except.error e).mapError .domain) : Task α) = Work.fail (.domain e) := rfl

theorem ofExcept_changed {α : Type} (a : α) :
    (Work.ofExcept ((Except.ok a).mapError .domain) : Task α) = Work.give a := rfl

/-- A creation that returns has staged a new to-do with the identifier that it drew. -/
theorem run_create {mapper : EventMapper} {workspace : WorkspaceId} {title : String}
    {p q : Progress SteppingClock ChangedTodo} {v : Todo} (empty : p.scope = .empty)
    (h : (Task.create mapper workspace title).run p = (.ended (.returned v), q)) :
    ∃ t, TrackedTodo.create ⟨p.db.ids.fresh.1⟩ workspace title p.notes.now = .ok t ∧
      q.scope = scopeOf mapper t (.put t.todo) ∧ q.db.ids = p.db.ids.fresh.2 := by
  simp only [Task.create, Task.readClock, bind, Work.bind, Work.give, Work.run] at h
  rcases hc : TrackedTodo.create ⟨p.db.ids.fresh.1⟩ workspace title p.notes.now with err | t
  · simp [hc, ofExcept_refused, Work.fail, Work.bind, Work.run] at h
  · simp only [hc, ofExcept_changed, Work.give, Work.bind] at h
    obtain ⟨scope, same_db⟩ := run_save (by exact empty) h
    exact ⟨t, rfl, scope, by rw [same_db]⟩

/-- A mutation that returns has staged what it has made of a stored to-do. -/
theorem run_mutate {mapper : EventMapper} {id : TodoId}
    {change : TrackedTodo → Instant → Except DomainError TrackedTodo} {p q : Progress SteppingClock ChangedTodo}
    {v : Todo} (empty : p.scope = .empty)
    (h : (Task.mutate mapper id change).run p = (.ended (.returned v), q)) :
    ∃ old t, p.db.repository.find? id = some old ∧ change (.restore old) p.notes.now = .ok t ∧
      q.scope = scopeOf mapper t (.put t.todo) := by
  rcases hf : p.db.repository.find? id with _ | old
  · simp [Task.mutate, Task.load, Work.run, hf, bind, Work.bind, Work.fail] at h
  · simp only [Task.mutate, Task.load, Task.readClock, Work.run, hf, bind, Work.bind, Work.give] at h
    rcases hc : change (.restore old) p.notes.now with err | t
    · simp [hc, ofExcept_refused, Work.fail, Work.bind, Work.run] at h
    · simp only [hc, ofExcept_changed, Work.give, Work.bind] at h
      exact ⟨old, t, rfl, hc, (run_save (by exact empty) h).1⟩

/-- A deletion that returns has staged the removal of a stored to-do. -/
theorem run_removal {mapper : EventMapper} {id : TodoId} {p q : Progress SteppingClock ChangedTodo} {v : Todo}
    (empty : p.scope = .empty) (h : (Task.delete mapper id).run p = (.ended (.returned v), q)) :
    ∃ old, p.db.repository.find? id = some old ∧
      q.scope = scopeOf mapper ((TrackedTodo.restore old).markDeleted p.notes.now) (.remove old.id) := by
  rcases hf : p.db.repository.find? id with _ | old
  · simp [Task.delete, Task.load, Work.run, hf, bind, Work.bind, Work.fail] at h
  · simp only [Task.delete, Task.load, Work.run, hf, bind, Work.bind, Work.give, Task.readClock] at h
    exact ⟨old, rfl, run_delete (by exact empty) h⟩

theorem create_leads (mapper : EventMapper) (workspace : WorkspaceId) (title : String)
    (stored : Repository) (ids : IdSupply) :
    LeadsWork (Task.create mapper workspace title) mapper stored ids := by
  rintro p empty rows rfl v q h
  obtain ⟨t, made, scope, drawn⟩ := run_create empty h
  obtain ⟨leads, same_id, -⟩ := TrackedTodo.create_leads made
  exact .created t scope leads same_id (drawn ▸ .refl _)

theorem mutate_leads (mapper : EventMapper) (id : TodoId)
    {change : TrackedTodo → Instant → Except DomainError TrackedTodo}
    (changes : ∀ old now t, change (.restore old) now = .ok t → TrackedTodo.Changes old t)
    (stored : Repository) (ids : IdSupply) :
    LeadsWork (Task.mutate mapper id change) mapper stored ids := by
  rintro p empty rfl drawn v q h
  obtain ⟨old, t, found, changed, scope⟩ := run_mutate empty h
  obtain ⟨leads, same_id, -⟩ := changes old _ t changed
  have own : old.id = id := (Repository.find?_some found).2
  exact .saved t old scope (by rw [same_id, own, found]) leads

theorem delete_leads (mapper : EventMapper) (id : TodoId) (stored : Repository) (ids : IdSupply) :
    LeadsWork (Task.delete mapper id) mapper stored ids := by
  rintro p empty rfl drawn v q h
  obtain ⟨old, found, scope⟩ := run_removal empty h
  have own : old.id = id := (Repository.find?_some found).2
  obtain ⟨e, pending, removes⟩ := TrackedTodo.markDeleted_pending old p.notes.now
  obtain ⟨same_id, same_workspace⟩ := (TodoEvent.replay?_some removes).2.1 old rfl
  refine .deleted _ e scope pending same_id.symm same_workspace.symm ?_
  show e.replay? (p.db.repository.find? old.id) = some none
  rw [own, found, removes]

theorem flush_nothing {mapper : EventMapper} {now : Instant} {t : TrackedTodo}
    (pending : t.pending = []) {ids last : IdSupply} {rows : List NewRecord}
    (h : Collected.flush now (gathered mapper t) ids = .ok (rows, last)) : rows = [] := by
  rw [gathered, pending] at h
  cases h
  rfl

theorem flush_event {mapper : EventMapper} {now : Instant} {t : TrackedTodo} {e : TodoEvent}
    (pending : t.pending = [e]) (same_id : e.todoId = t.todo.id) {ids last : IdSupply}
    {rows : List NewRecord}
    (h : Collected.flush now (gathered mapper t) ids = .ok (rows, last)) : Mapped mapper e rows := by
  rw [gathered, pending] at h
  rcases hm : mapper e with err | _ | m
  · simp [Collected.flush, Collected.records, hm] at h
  · simp [Collected.flush, Collected.records, hm] at h
    exact ⟨none, hm, by simp [h.1]⟩
  · simp [Collected.flush, Collected.records, hm] at h
    refine ⟨some m, hm, ?_⟩
    rw [← h.1, same_id]
    rfl

variable {α : Type} {task : Task α} {mapper : EventMapper} {db : Database} {clock : SteppingClock}

def executed (task : Task α) (db : Database) (clock : SteppingClock) :
    Executed SteppingClock ChangedTodo ServiceError α :=
  task.execute .unitOfWork db .never false 0 clock

theorem committed_scopeOf {q : Progress SteppingClock ChangedTodo} {t : TrackedTodo} {write : RowWrite}
    {rows : List NewRecord}
    (done : Work.Committed db q rows (executed task db clock))
    (scope : q.scope = scopeOf mapper t write) :
    (executed task db clock).db.outbox.records = db.outbox.records ++ rows.map .ofNew ∧
      (executed task db clock).db.repository = db.repository.apply write ∧
      (executed task db clock).hooks = [⟨t.todo.id, t.todo.workspaceId⟩] := by
  obtain ⟨records, repository, -, hooks⟩ := done
  rw [scope] at records repository hooks
  exact ⟨records, repository, hooks⟩

/-- A to-do that was saved has changed what is stored by its event, if it has one. -/
theorem change_of_saved {q : Progress SteppingClock ChangedTodo} {t : TrackedTodo}
    {rows : List NewRecord} (done : Work.Committed db q rows (executed task db clock))
    (scope : q.scope = scopeOf mapper t (.put t.todo)) {now : Instant} {ids last : IdSupply}
    (flushed : Collected.flush now (gathered mapper t) ids = .ok (rows, last))
    (leads : t.LeadsFrom (db.repository.find? t.todo.id))
    (drawn : db.repository.find? t.todo.id = none → t.todo.id.uuid = db.ids.fresh.1 ∧
      db.ids.fresh.2.Extends (executed task db clock).db.ids) :
    Change mapper db (executed task db clock).db (executed task db clock).hooks := by
  obtain ⟨records, repository, hooks⟩ := committed_scopeOf done scope
  rw [hooks]
  cases leads with
  | same nothing old =>
    rw [flush_nothing nothing flushed, List.map_nil, List.append_nil] at records
    exact .same t.todo old records repository
  | event e pending replays =>
    obtain ⟨same_id, same_workspace⟩ := (TodoEvent.replay?_some replays).2.2 t.todo rfl
    have mapped := flush_event pending same_id.symm flushed
    rw [same_id] at replays drawn
    rw [same_id, same_workspace]
    exact .event e rows (some t.todo) records mapped replays repository drawn

/-- What work does that leads from what is stored to what it stages. A new identifier, if one was drawn, is
not that of a stored to-do. -/
theorem change_of_leads (leads : LeadsWork task mapper db.repository db.ids)
    (fresh : db.ids.fresh.2.Extends (executed task db clock).db.ids →
      db.repository.find? ⟨db.ids.fresh.1⟩ = none) :
    Change mapper db (executed task db clock).db (executed task db clock).hooks := by
  rcases Work.execute_cases task ServiceError.unitOfWork db .never false 0 clock with
    ⟨v, returned⟩ | ⟨stop, stops⟩
  · obtain ⟨q, rows, ends, flushed, done⟩ := Work.execute_returned returned
    obtain ⟨begun, ⟨-, passed, -, outbox, -, rfl⟩, hr⟩ := ends
    cases leads ⟨{ db with outbox := outbox }, .empty, .never, false, 0, clock⟩ rfl rfl rfl v q hr with
    | created t scope leads new_id more =>
      have drawn : db.ids.fresh.2.Extends (executed task db clock).db.ids :=
        more.trans (Collected.flush_extends flushed)
      have absent := fresh drawn
      rw [scope] at flushed
      rw [← new_id] at absent
      exact change_of_saved done scope flushed (absent ▸ leads) fun _ => ⟨by rw [new_id], drawn⟩
    | saved t old scope found leads =>
      rw [scope] at flushed
      refine change_of_saved done scope flushed (found ▸ leads) ?_
      rw [found]
      nofun
    | deleted t e scope pending same_id same_workspace removes =>
      obtain ⟨records, repository, hooks⟩ := committed_scopeOf done scope
      rw [scope] at flushed
      have mapped := flush_event pending same_id flushed
      rw [← same_id] at removes repository hooks
      rw [← same_workspace] at hooks
      rw [hooks]
      refine .event e rows none records mapped removes repository fun absent => ?_
      exact absurd absent.symm (TodoEvent.replay?_some removes).1
  · have undone := (Work.execute_of_stopsAt ServiceError.unitOfWork stops).2
    have hooks : (executed task db clock).hooks = [] := undone.hooks
    rw [hooks]
    exact .nothing undone.restored.records undone.restored.repository

end Workboard.TodoService
