import Workboard.Proofs.Service.Replay
import Workboard.Work.Interleaving

/-!
What work commits besides its rows: its events tell what becomes of the row of a to-do, if the row is one of those
that the work has reckoned with. The changes of the service do so for the row that they have found.
-/

namespace Workboard

variable {σ η ε α : Type} {id : TodoId}

namespace Database

theorem find?_foldl_applyWrite (writes : List StagedWrite) (db : Database) :
    (writes.foldl applyWrite db).repository.find? id =
      writes.foldl (StagedWrite.rowOf id) (db.repository.find? id) := by
  induction writes generalizing db with
  | nil => rfl
  | cons write writes ih =>
    rw [List.foldl_cons, List.foldl_cons, ih]
    congr 1
    rcases write with (t | other) | label
    · by_cases own : t.id = id
      · subst own
        simp [applyWrite, Repository.apply, StagedWrite.rowOf]
      · simp [applyWrite, Repository.apply, StagedWrite.rowOf, own, Repository.find?_insert_of_ne _ (Ne.symm own)]
    · by_cases own : other = id
      · subst own
        simp [applyWrite, Repository.apply, StagedWrite.rowOf]
      · simp [applyWrite, Repository.apply, StagedWrite.rowOf, own, Repository.find?_erase_of_ne _ (Ne.symm own)]
    · rfl

end Database

namespace Collected

open Database

theorem records_told {kind : String} {aggregate : Uuid} {now : Instant} {events : List TodoEvent}
    {ids last : IdSupply} {rows : List NewRecord}
    (h : records kind aggregate .standard now events ids = .ok (rows, last)) (id : TodoId) :
    Told id (rows.map .ofNew) (if aggregate = id.uuid then events else []) := by
  induction events generalizing ids rows with
  | nil =>
    cases h
    simp [Told]
  | cons e events ih =>
    rcases rest : records kind aggregate .standard now events ids.fresh.2 with err | ⟨more, last⟩
    · simp [records, EventMapper.standard, rest] at h
    · simp only [records, EventMapper.standard, rest] at h
      cases h
      have told := ih rest
      by_cases own : aggregate = id.uuid
      · simp only [own, if_true] at told ⊢
        have first : Told id [.ofNew ⟨ids.fresh.1, (EventMapper.mapped e).eventType, kind, id.uuid,
            (EventMapper.mapped e).payload, (EventMapper.mapped e).headers, now⟩] [e] := by
          simp [Told, OutboxRecord.ofNew, EventMapper.mapped, e.ofBytes?_toBytes]
        exact first.append told
      · simp only [own, if_false] at told ⊢
        simpa [Told, OutboxRecord.ofNew, own] using told

theorem flush_told {now : Instant} {cs : List Collected} (standard : ∀ c ∈ cs, c.mapper = .standard)
    {ids last : IdSupply} {rows : List NewRecord} (h : flush now cs ids = .ok (rows, last)) (id : TodoId) :
    Told id (rows.map .ofNew) ((cs.filter fun c => c.aggregateId = id.uuid).flatMap (·.events)) := by
  induction cs generalizing ids rows with
  | nil =>
    cases h
    simp [Told]
  | cons c cs ih =>
    rw [flush] at h
    split at h
    next => cases h
    next first made =>
      split at h
      next => cases h
      next more flushed =>
        cases h
        rw [standard c List.mem_cons_self] at made
        have told := (records_told made id).append (ih (fun c mem => standard c (List.mem_cons_of_mem _ mem)) flushed)
        by_cases own : c.aggregateId = id.uuid <;> simpa [own] using told

end Collected

/-- A transaction that has only writes staged. -/
structure Transaction.OnlyStages (tx : Transaction StagedWrite) : Prop where
  appended : tx.appended = []
  updates : tx.updates = []
  claimed : tx.claimed = []

theorem Transaction.OnlyStages.clean {tx : Transaction StagedWrite} (h : tx.OnlyStages) (db : Database) :
    db.Clean db tx :=
  ⟨rfl, rfl, (OutboxStore.holds_empty db.outbox).congr rfl h.claimed⟩

theorem Transaction.OnlyStages.written {tx : Transaction StagedWrite} (h : tx.OnlyStages) (outbox : OutboxStore)
    (rows : List NewRecord) : outbox.written (tx.append rows) = outbox.records ++ rows.map .ofNew := by
  simp [OutboxStore.written, Transaction.append, h.appended, h.updates]

theorem StagedWrite.foldl_rowOf_of_apart {writes : List StagedWrite} (apart : ∀ w ∈ writes, w.target? ≠ some id)
    (row : Option Todo) : writes.foldl (rowOf id) row = row := by
  induction writes with
  | nil => rfl
  | cons w writes ih =>
    have other : w.target? ≠ some id := apart w List.mem_cons_self
    have same : rowOf id row w = row := by
      rcases w with (t | asked) | label
      · exact if_neg fun own => other (congrArg some own)
      · exact if_neg fun own => other (congrArg some own)
      · rfl
    rw [List.foldl_cons, same]
    exact ih fun u mem => apart u (List.mem_cons_of_mem _ mem)

theorem Scope.untouched {s : Scope η} (h : s.touches id = false) :
    s.eventsOf id = [] ∧ ∀ row, s.rowOf id row = row := by
  obtain ⟨staged, collected⟩ := Bool.or_eq_false_iff.mp h
  refine ⟨?_, fun row => ?_⟩
  · have none_own : (s.collected.filter fun c => c.aggregateId = id.uuid) = [] := by
      rw [List.filter_eq_nil_iff]
      exact List.any_eq_false.mp collected
    rw [eventsOf, none_own]
    rfl
  · refine StagedWrite.foldl_rowOf_of_apart (fun w mem => ?_) row
    simpa using List.any_eq_false.mp staged w mem

namespace Work

variable (lift : UnitOfWorkError → ε)

/-- A conclusion that returns has written the events and carried out the writes, and any other has left rows as
they were. -/
theorem conclude_stored (value : α) {p : Progress σ η} (stages : p.scope.tx.OnlyStages) :
    let x : Executed σ η ε α := conclude lift value p
    x.ending.isReturned = false ∧ x.db.outbox.records = p.db.outbox.records ∧ x.db.repository = p.db.repository ∨
      x.ending.isReturned = true ∧ ∃ rows ids,
        Collected.flush p.db.now p.scope.collected p.db.ids = .ok (rows, ids) ∧
        x.db.outbox.records = p.db.outbox.records ++ rows.map .ofNew ∧
        x.db.repository = (p.scope.tx.staged.foldl Database.applyWrite p.db).repository := by
  intro x
  have clean := stages.clean p.db
  have undone (e : UnitOfWorkError) {db : Database} (restored : p.db.Restored db)
      (done : x = ⟨.failed (lift e), db, [], [], p.clock, p.notes⟩) :
      x.ending.isReturned = false ∧ x.db.outbox.records = p.db.outbox.records ∧ x.db.repository = p.db.repository := by
    rw [done]
    exact ⟨rfl, restored.records, restored.repository⟩
  rcases hf : Collected.flush p.db.now p.scope.collected p.db.ids with err | ⟨rows, ids⟩
  · exact .inl (undone (.mapping err) clean.rollback (by simp only [x, conclude, hf]))
  rcases ha : { p.db with ids := ids }.appendAll p.scope.tx rows with ⟨e | tx, after⟩
  · exact .inl (undone (.outbox e) (clean.appends ha).1.rollback (by simp only [x, conclude, hf, ha]))
  have appended := (clean.appends ha).2 tx rfl
  by_cases stopped : p.token.cancelled = true
  · exact .inl (undone .cancelled appended.rollback (by simp only [x, conclude, hf, ha, stopped, if_true]))
  rcases ht : after.commit tx with ⟨e | writes, final⟩
  · exact .inl (undone (.outbox e) (appended.commit_error ht) (by simp only [x, conclude, hf, ha, if_neg stopped, ht]))
  obtain rfl := Database.appendAll_ok ha
  obtain ⟨rfl, records, repository⟩ := Database.commit_ok ht
  have done : x = ⟨.returned value, final, p.scope.tx.staged, p.scope.hooks, p.clock, p.notes⟩ := by
    simp only [x, conclude, hf, ha, if_neg stopped, ht]
    rfl
  refine .inr ⟨by rw [done]; rfl, rows, ids, rfl, ?_, ?_⟩
  · rw [done]
    show final.outbox.records = _
    rw [records, stages.written, appended.records]
  · rw [done]
    exact repository.trans (Database.foldl_applyWrite_repository _ appended.repository)

theorem finish_stored (outcome : Outcome ε α) (unreturned : ∀ v, outcome ≠ .ended (.returned v))
    {p : Progress σ η} (stages : p.scope.tx.OnlyStages) :
    (finish lift outcome p).db.outbox.records = p.db.outbox.records ∧
      (finish lift outcome p).db.repository = p.db.repository := by
  have restored := (stages.clean p.db).rollback
  rcases outcome with (v | e | m) | _
  · exact absurd rfl (unreturned v)
  · exact ⟨restored.records, restored.repository⟩
  · exact ⟨restored.records, restored.repository⟩
  · exact ⟨restored.records, restored.repository⟩

/-- What is staged is told after a step, too, with what the step has looked at. A step changes no rows. -/
theorem Tells.step {work next : Work σ η ε α} {seen : Option Todo → Prop} {p q : Progress σ η}
    (h : work.Tells id seen p.scope) (stepped : work.step p = (.inr next, q)) :
    ((∃ rest, work = .find id rest) ∧ next.Tells id (· = p.db.repository.find? id) q.scope ∨
      (∀ rest, work ≠ .find id rest) ∧ next.Tells id seen q.scope) ∧
    q.db.repository = p.db.repository ∧ q.db.outbox = p.db.outbox ∧
    (p.scope.tx.OnlyStages → q.scope.tx.OnlyStages) := by
  cases work with
  | done ending => cases stepped
  | look rest => cases stepped; exact ⟨.inr ⟨nofun, h _⟩, rfl, rfl, fun stages => stages⟩
  | note notes rest => cases stepped; exact ⟨.inr ⟨nofun, h⟩, rfl, rfl, fun stages => stages⟩
  | freshId rest => cases stepped; exact ⟨.inr ⟨nofun, h _⟩, rfl, rfl, fun stages => stages⟩
  | find asked rest =>
    cases stepped
    refine ⟨?_, rfl, rfl, fun stages => stages⟩
    have told := h (p.db.repository.find? asked) fun t found => (Repository.find?_some found).2
    by_cases own : asked = id
    · subst own
      rw [if_pos rfl] at told
      exact .inl ⟨⟨rest, rfl⟩, told⟩
    · rw [if_neg own] at told
      refine .inr ⟨?_, told⟩
      rintro _ ⟨⟩
      exact own rfl
  | collect mapper t rest =>
    cases stepped
    refine ⟨.inr ⟨nofun, h⟩, rfl, rfl, fun stages => ?_⟩
    show (p.scope.collect mapper t).2.tx.OnlyStages
    rwa [Scope.collect_tx]
  | stage write rest =>
    cases stepped
    exact ⟨.inr ⟨nofun, h⟩, rfl, rfl, fun stages => ⟨stages.appended, stages.updates, stages.claimed⟩⟩
  | append records rest => cases h
  | fetch limit rest => cases h
  | markProcessed asked rest => cases h
  | markFailed asked error rest => cases h
  | afterCommit hook rest => cases stepped; exact ⟨.inr ⟨nofun, h⟩, rfl, rfl, fun stages => stages⟩
  | counts rest => cases stepped; exact ⟨.inr ⟨nofun, h⟩, rfl, rfl, fun stages => stages⟩
  | cancel rest =>
    cases stepped
    split <;> exact ⟨.inr ⟨nofun, h⟩, rfl, rfl, fun stages => stages⟩
  | sleep ms rest =>
    simp only [Work.step] at stepped
    split at stepped <;> cases stepped
    exact ⟨.inr ⟨nofun, h⟩, rfl, rfl, fun stages => stages⟩

theorem step_last {work : Work σ η ε α} {outcome : Outcome ε α} {p q : Progress σ η}
    (h : work.step p = (.inl outcome, q)) :
    (∃ ending, work = .done ending ∧ outcome = .ended ending ∧ q = p) ∨
      (∃ ms next, work = .sleep ms next) ∧ outcome = .cancelled ∧ q.db = p.db ∧ q.scope = p.scope := by
  cases work with
  | done ending =>
    cases h
    exact .inl ⟨ending, rfl, rfl, rfl⟩
  | sleep ms next =>
    simp only [Work.step] at h
    split at h <;> cases h
    exact .inr ⟨⟨ms, next, rfl⟩, rfl, rfl, rfl⟩
  | _ => cases h

end Work

namespace TodoService

/-- Work that touches another to-do has nothing to tell of this one. -/
theorem scopeOf_tells_other {mapper : EventMapper} {t : TrackedTodo} {write : RowWrite}
    (target : (StagedWrite.row write).target? = some t.todo.id) (other : t.todo.id ≠ id) (row : Option Todo) :
    (scopeOf mapper t write).Tells id row := by
  have apart : t.todo.id.uuid ≠ id.uuid := fun same => other (congrArg TodoId.mk same)
  have untouched : (scopeOf mapper t write).touches id = false := by
    by_cases nothing : t.pending.isEmpty = true <;>
      simp [Scope.touches, scopeOf, gathered, target, other, nothing, apart]
  obtain ⟨no_events, same⟩ := Scope.untouched untouched
  rw [Scope.Tells, no_events, same]
  rfl

theorem scopeOf_standard (t : TrackedTodo) (write : RowWrite) :
    ∀ c ∈ (scopeOf .standard t write).collected, c.mapper = .standard := by
  intro c mem
  simp only [scopeOf, gathered] at mem
  split at mem
  · cases mem
  · rw [List.mem_singleton.mp mem]

theorem eventsOf_scopeOf {mapper : EventMapper} {t : TrackedTodo} {write : RowWrite} :
    (scopeOf mapper t write).eventsOf t.todo.id = t.pending := by
  by_cases nothing : t.pending = [] <;> simp [Scope.eventsOf, scopeOf, gathered, nothing]

theorem scopeOf_put_tells {mapper : EventMapper} {t : TrackedTodo} {row : Option Todo} (leads : t.LeadsFrom row) :
    (scopeOf mapper t (.put t.todo)).Tells t.todo.id row := by
  have staged : (scopeOf mapper t (.put t.todo)).rowOf t.todo.id row = some t.todo := if_pos rfl
  rw [Scope.Tells, eventsOf_scopeOf, staged]
  cases leads with
  | same nothing old =>
    rw [nothing, old]
    rfl
  | event e pending replays => simp [pending, TodoEvent.replayAll?, replays]

theorem scopeOf_remove_tells {mapper : EventMapper} {t : TrackedTodo} {e : TodoEvent} {row : Option Todo}
    (pending : t.pending = [e]) (removes : e.replay? row = some none) :
    (scopeOf mapper t (.remove t.todo.id)).Tells t.todo.id row := by
  have staged : (scopeOf mapper t (.remove t.todo.id)).rowOf t.todo.id row = none := if_pos rfl
  rw [Scope.Tells, eventsOf_scopeOf, staged]
  simp [pending, TodoEvent.replayAll?, removes]

theorem staged_tells {t : TrackedTodo} (write : RowWrite) {seen : Option Todo → Prop}
    (target : (StagedWrite.row write).target? = some t.todo.id)
    (own : t.todo.id = id → ∀ row, seen row → (scopeOf .standard t write).Tells t.todo.id row) :
    (Task.changed t).Tells id seen ⟨⟨[], [], [.row write], []⟩, gathered .standard t, []⟩ := by
  refine ⟨scopeOf_standard t write, fun row sees => ?_⟩
  by_cases same : t.todo.id = id
  · exact same ▸ own same row sees
  · exact scopeOf_tells_other target same row

theorem save_tells {t : TrackedTodo} {seen : Option Todo → Prop}
    (leads : t.todo.id = id → ∀ row, seen row → t.LeadsFrom row) :
    ((Work.save .standard t).bind Task.changed : Task Todo).Tells id seen .empty := by
  obtain ⟨same, scope⟩ := collect_empty .standard t
  have staged := staged_tells (.put t.todo) rfl fun own row sees => scopeOf_put_tells (leads own row sees)
  simp only [Work.save, Work.bind, Work.give, Task.changed, Work.Tells, scope, same] at staged ⊢
  exact staged

theorem removal_tells {t : TrackedTodo} {e : TodoEvent} {seen : Option Todo → Prop} (pending : t.pending = [e])
    (removes : t.todo.id = id → ∀ row, seen row → e.replay? row = some none) :
    ((Work.delete .standard t).bind Task.changed : Task Todo).Tells id seen .empty := by
  obtain ⟨same, scope⟩ := collect_empty .standard t
  have staged := staged_tells (.remove t.todo.id) rfl fun own row sees =>
    scopeOf_remove_tells pending (removes own row sees)
  simp only [Work.delete, Work.bind, Work.give, Task.changed, Work.Tells, scope, same] at staged ⊢
  exact staged

theorem mutate_tells (asked : TodoId) {change : TrackedTodo → Instant → Except DomainError TrackedTodo}
    (changes : ∀ old now t, change (.restore old) now = .ok t → TrackedTodo.Changes old t) :
    (Task.mutate .standard asked change).Tells id (fun _ => True) .empty := by
  intro row found
  rcases row with _ | old
  · trivial
  intro clock
  show ((Work.ofExcept ((change (.restore old) clock.now).mapError .domain)).bind fun t =>
    (Work.save .standard t).bind Task.changed : Task Todo).Tells id _ .empty
  rcases changed : change (.restore old) clock.now with err | t
  · trivial
  obtain ⟨leads, same_id, -⟩ := changes old _ t changed
  refine save_tells fun own row sees => ?_
  have asked_own : asked = id := (found old rfl).symm.trans (same_id.symm.trans own)
  rw [if_pos asked_own] at sees
  exact sees ▸ leads

theorem delete_tells (asked : TodoId) : (Task.delete .standard asked).Tells id (fun _ => True) .empty := by
  intro row found
  rcases row with _ | old
  · trivial
  intro clock
  obtain ⟨e, pending, removes⟩ := TrackedTodo.markDeleted_pending old clock.now
  refine removal_tells pending fun own row sees => ?_
  have asked_own : asked = id := (found old rfl).symm.trans own
  rw [if_pos asked_own] at sees
  exact sees ▸ removes

end TodoService

end Workboard
