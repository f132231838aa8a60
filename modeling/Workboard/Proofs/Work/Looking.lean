import Workboard.Service.Basic

/-!
Which rows work looks at. How an execution ends does not depend on the others.
-/

namespace Workboard

variable {σ η ε α β : Type}

/-- Work under way over other rows. -/
def Progress.over (p : Progress σ η) (r : Repository) : Progress σ η := { p with db := { p.db with repository := r } }

namespace Work

/-- Work that looks at the rows of some to-dos only: over other rows it does the same, if those are found alike. -/
def LooksOnlyAt (ids : List TodoId) (work : Work σ η ε α) : Prop :=
  ∀ (p : Progress σ η) (r : Repository), (∀ id ∈ ids, r.find? id = p.db.repository.find? id) →
    work.run (p.over r) = ((work.run p).1, (work.run p).2.over r)

variable {ids : List TodoId}

theorem looks_done (ending : Ending ε α) : LooksOnlyAt ids (.done ending : Work σ η ε α) := fun _ _ _ => rfl

theorem looks_save (mapper : EventMapper) (t : TrackedTodo) {f : TrackedTodo → Work σ η ε α}
    (rest : ∀ t, LooksOnlyAt ids (f t)) : LooksOnlyAt ids ((save mapper t).bind f) := fun p r same =>
  rest _ { p with scope := (p.scope.collect mapper t).2.stage (.row (.put (p.scope.collect mapper t).1.todo)) } r same

theorem looks_delete (mapper : EventMapper) (t : TrackedTodo) {f : TrackedTodo → Work σ η ε α}
    (rest : ∀ t, LooksOnlyAt ids (f t)) : LooksOnlyAt ids ((delete mapper t).bind f) := fun p r same =>
  rest _ { p with scope := (p.scope.collect mapper t).2.stage (.row (.remove (p.scope.collect mapper t).1.todo.id)) }
    r same

theorem looks_find {id : TodoId} (asked : id ∈ ids) {next : Option Todo → Work σ η ε α}
    (rest : ∀ t, LooksOnlyAt ids (next t)) : LooksOnlyAt ids (.find id next) := by
  intro p r same
  have found : (p.over r).db.repository.find? id = p.db.repository.find? id := same id asked
  rw [run, run, found]
  exact rest _ p r same

theorem looks_freshId {next : Uuid → Work σ η ε α} (rest : ∀ id, LooksOnlyAt ids (next id)) :
    LooksOnlyAt ids (.freshId next) := fun p r same =>
  rest _ { p with db := { p.db with ids := p.db.ids.fresh.2 } } r same

theorem looks_ofExcept {γ : Type} (made : Except ε γ) {f : γ → Work σ η ε α} (rest : ∀ c, LooksOnlyAt ids (f c)) :
    LooksOnlyAt ids ((ofExcept made).bind f) := by
  rcases made with e | c
  · exact looks_done _
  · exact rest c

end Work

namespace TodoService.Task

open Work

variable {ids : List TodoId} {α : Type}

theorem looks_readClock {f : Instant → Task α} (rest : ∀ now, LooksOnlyAt ids (f now)) :
    LooksOnlyAt ids (readClock.bind f) := fun p r same =>
  rest p.notes.now { p with notes := p.notes.tick } r same

theorem looks_changed (t : TrackedTodo) : LooksOnlyAt ids (changed t) := fun _ _ _ => rfl

theorem looks_load {id : TodoId} {f : TrackedTodo → Task α} (asked : id ∈ ids) (rest : ∀ t, LooksOnlyAt ids (f t)) :
    LooksOnlyAt ids ((load id).bind f) := by
  refine looks_find asked fun found => ?_
  cases found with
  | none => exact looks_done _
  | some t => exact rest (.restore t)

theorem create_looks (mapper : EventMapper) (workspace : WorkspaceId) (title : String) :
    LooksOnlyAt [] (create mapper workspace title) := by
  refine looks_readClock fun now => looks_freshId fun id => ?_
  exact looks_ofExcept _ fun t => looks_save mapper t looks_changed

theorem mutate_looks (mapper : EventMapper) (id : TodoId)
    (change : TrackedTodo → Instant → Except DomainError TrackedTodo) :
    LooksOnlyAt [id] (mutate mapper id change) := by
  refine looks_load (List.mem_singleton_self id) fun t => looks_readClock fun now => ?_
  exact looks_ofExcept _ fun t => looks_save mapper t looks_changed

theorem delete_looks (mapper : EventMapper) (id : TodoId) : LooksOnlyAt [id] (delete mapper id) := by
  refine looks_load (List.mem_singleton_self id) fun t => looks_readClock fun now => ?_
  exact looks_delete mapper _ looks_changed

end TodoService.Task

namespace Work

theorem appendAll_over (db : Database) (r : Repository) (tx : Transaction StagedWrite) (rows : List NewRecord) :
    { db with repository := r }.appendAll tx rows =
      ((db.appendAll tx rows).1, { (db.appendAll tx rows).2 with repository := r }) := by
  unfold Database.appendAll
  split <;> rfl

theorem commit_over (db : Database) (r : Repository) (tx : Transaction StagedWrite) :
    ({ db with repository := r }.commit tx).1 = (db.commit tx).1 := by
  unfold Database.commit
  dsimp only
  split <;> rfl

theorem conclude_ending (lift : UnitOfWorkError → ε) (value : α) (p : Progress σ η) (r : Repository) :
    (conclude lift value (p.over r)).ending = (conclude lift value p).ending := by
  obtain ⟨⟨outbox, repository, ids, now⟩, scope, token, watched, clock, notes⟩ := p
  simp only [conclude, Progress.over]
  rcases Collected.flush now scope.collected ids with e | ⟨records, drawn⟩
  · rfl
  have appends := appendAll_over ⟨outbox, repository, drawn, now⟩ r scope.tx records
  rcases appended : Database.appendAll ⟨outbox, repository, drawn, now⟩ scope.tx records with ⟨e | tx, db⟩
  · simp only [appends, appended]
  rw [appended] at appends
  by_cases stopped : token.cancelled = true
  · simp only [appends, appended, stopped, if_true]
  · have commits := commit_over db r tx
    rcases moved : { db with repository := r }.commit tx with ⟨e | writes, after⟩
    all_goals
      rcases committed : db.commit tx with ⟨e' | writes', after'⟩
      all_goals
        rw [moved, committed] at commits
        cases commits
    · simp only [appends, appended, moved, committed, if_neg stopped]
    · simp only [appends, appended, moved, committed, if_neg stopped]

theorem finish_ending (lift : UnitOfWorkError → ε) (outcome : Outcome ε α) (p : Progress σ η) (r : Repository) :
    (finish lift outcome (p.over r)).ending = (finish lift outcome p).ending := by
  rcases outcome with (v | e | m) | _
  · exact conclude_ending lift v p r
  · rfl
  · rfl
  · rfl

/-- Where the rows that work looks at are alike, its execution ends alike. -/
theorem execute_ending {ids : List TodoId} {work : Work σ η ε α} (looks : work.LooksOnlyAt ids)
    (lift : UnitOfWorkError → ε) (db : Database) {r : Repository}
    (same : ∀ id ∈ ids, r.find? id = db.repository.find? id) (token : CancelToken) (watched : Bool) (clock : Nat)
    (notes : σ) :
    (work.execute lift { db with repository := r } token watched clock notes).ending =
      (work.execute lift db token watched clock notes).ending := by
  unfold execute
  split
  · rfl
  · dsimp only
    split
    · rfl
    · split
      · rfl
      next outbox _ =>
        have ran := looks ⟨{ db with outbox := outbox }, .empty, token, watched, clock, notes⟩ r same
        simp only [Progress.over] at ran
        rw [ran]
        exact finish_ending lift _ _ r

end Work

end Workboard
