import Workboard.Todo.Basic

/-!
Each change to a to-do records the one event that makes the new to-do of the old one, or changes nothing and
records none.
-/

namespace Workboard

namespace TodoEvent

/-- An event that applies has an effect, on the to-do that it names. -/
theorem replay?_some {e : TodoEvent} {old new : Option Todo} (h : e.replay? old = some new) :
    new ≠ old ∧ (∀ t ∈ old, t.id = e.todoId ∧ t.workspaceId = e.workspaceId) ∧
      ∀ t ∈ new, t.id = e.todoId ∧ t.workspaceId = e.workspaceId := by
  obtain ⟨todo, workspace, change, time⟩ := e
  cases old with
  | none =>
    cases change with
    | created title =>
      cases h
      simp
    | renamed title => cases h
    | completed => cases h
    | reopened => cases h
    | deleted => cases h
  | some t =>
    by_cases same : t.id = todo ∧ t.workspaceId = workspace
    · have old : ∀ u ∈ some t, u.id = todo ∧ u.workspaceId = workspace := by
        rintro u ⟨⟩
        exact same
      rw [replay?, if_pos same] at h
      cases change with
      | created title => cases h
      | renamed title =>
        by_cases kept : title = t.title
        · simp [kept] at h
        · obtain rfl : some { t with title := title, updatedAt := time } = new := by
            simpa [kept] using h
          refine ⟨?_, old, by simpa using same⟩
          intro he
          exact kept (congrArg Todo.title (Option.some.inj he))
      | completed =>
        by_cases done : t.completed = true
        · simp [done] at h
        · obtain rfl : some { t with completed := true, completedAt := some time, updatedAt := time } =
              new := by simpa [done] using h
          refine ⟨?_, old, by simpa using same⟩
          intro he
          exact done (congrArg Todo.completed (Option.some.inj he)).symm
      | reopened =>
        by_cases done : t.completed = true
        · obtain rfl : some { t with completed := false, completedAt := none, updatedAt := time } =
              new := by simpa [done] using h
          refine ⟨?_, old, by simpa using same⟩
          intro he
          have open_ := congrArg Todo.completed (Option.some.inj he)
          simp [done] at open_
        · simp [done] at h
      | deleted =>
        cases h
        exact ⟨(Option.some_ne_none t).symm, old, by simp⟩
    · rw [replay?, if_neg same] at h
      cases h

/-- What the text of an event names makes of what the text of a row names what the event makes of the row. -/
theorem replay?_asWritten {e : TodoEvent} {old new : Option Todo} (h : e.replay? old = some new) :
    e.asWritten.replay? (old.map Todo.asWritten) = some (new.map Todo.asWritten) := by
  obtain ⟨todo, workspace, change, time⟩ := e
  cases old with
  | none =>
    cases change with
    | created title =>
      cases h
      rfl
    | renamed title => cases h
    | completed => cases h
    | reopened => cases h
    | deleted => cases h
  | some t =>
    have same : t.id = todo ∧ t.workspaceId = workspace := (replay?_some h).2.1 t rfl
    rw [replay?, if_pos same] at h
    rw [Option.map_some, replay?, if_pos (by exact same)]
    cases change with
    | created title => cases h
    | renamed title =>
      by_cases kept : title = t.title
      · simp [kept] at h
      · obtain rfl : some { t with title := title, updatedAt := time } = new := by simpa [kept] using h
        exact if_neg kept
    | completed =>
      by_cases done : t.completed = true
      · simp [done] at h
      · obtain rfl : some { t with completed := true, completedAt := some time, updatedAt := time } = new := by
          simpa [done] using h
        exact if_neg done
    | reopened =>
      by_cases done : t.completed = true
      · obtain rfl : some { t with completed := false, completedAt := none, updatedAt := time } = new := by
          simpa [done] using h
        exact if_pos done
      · simp [done] at h
    | deleted =>
      cases h
      rfl

theorem replayAll?_asWritten {es : List TodoEvent} {old new : Option Todo} (h : replayAll? es old = some new) :
    replayAll? (es.map asWritten) (old.map Todo.asWritten) = some (new.map Todo.asWritten) := by
  induction es generalizing old with
  | nil =>
    cases h
    rfl
  | cons e es ih =>
    obtain ⟨mid, first, rest⟩ := Option.bind_eq_some_iff.mp h
    exact Option.bind_eq_some_iff.mpr ⟨mid.map Todo.asWritten, replay?_asWritten first, ih rest⟩

theorem replayAll?_append {es fs : List TodoEvent} {row mid : Option Todo}
    (h : replayAll? es row = some mid) : replayAll? (es ++ fs) row = replayAll? fs mid := by
  have first : es.foldlM (fun row e => replay? e row) row = some mid := h
  rw [replayAll?, List.foldlM_append, first]
  rfl

end TodoEvent

/-- What is pending of a to-do leads from an earlier row to its own: nothing if the two are equal, and
otherwise one event. -/
inductive TrackedTodo.LeadsFrom (old : Option Todo) (t : TrackedTodo) : Prop
  | same : t.pending = [] → old = some t.todo → LeadsFrom old t
  | event (e : TodoEvent) : t.pending = [e] → e.replay? old = some (some t.todo) → LeadsFrom old t

namespace TrackedTodo

theorem create_leads {id : TodoId} {workspace : WorkspaceId} {title : String} {now : Instant}
    {t : TrackedTodo} (h : create id workspace title now = .ok t) :
    t.LeadsFrom none ∧ t.todo.id = id ∧ t.todo.workspaceId = workspace := by
  unfold create at h
  rcases hv : validateTitle title with err | trimmed
  · rw [hv] at h
    cases h
  · rw [hv] at h
    cases h
    exact ⟨.event _ rfl rfl, rfl, rfl⟩

/-- A change that keeps identifier and workspace, and records what leads to the new to-do. -/
def Changes (old : Todo) (t : TrackedTodo) : Prop :=
  t.LeadsFrom (some old) ∧ t.todo.id = old.id ∧ t.todo.workspaceId = old.workspaceId

theorem changes_restore (old : Todo) : Changes old (restore old) := ⟨.same rfl rfl, rfl, rfl⟩

theorem rename_changes {old : Todo} {title : String} {now : Instant} {t : TrackedTodo}
    (h : (restore old).rename title now = .ok t) : Changes old t := by
  unfold rename at h
  rcases hv : validateTitle title with err | trimmed
  · rw [hv] at h
    cases h
  · rw [hv] at h
    replace h : (if trimmed = old.title then Except.ok (restore old)
      else .ok ((restore old).record { old with title := trimmed, updatedAt := now }
        (.renamed trimmed) now)) = (.ok t : Except DomainError TrackedTodo) := h
    split at h
    next =>
      cases h
      exact changes_restore old
    next kept =>
      cases h
      refine ⟨.event _ rfl ?_, rfl, rfl⟩
      simp [TodoEvent.replay?, record, restore, kept]

theorem complete_changes (old : Todo) (now : Instant) : Changes old ((restore old).complete now) := by
  unfold complete
  split
  next => exact changes_restore old
  next open_ =>
    refine ⟨.event _ rfl ?_, rfl, rfl⟩
    simp [TodoEvent.replay?, record, restore] at open_ ⊢
    exact open_

theorem reopen_changes (old : Todo) (now : Instant) : Changes old ((restore old).reopen now) := by
  unfold reopen
  split
  next done =>
    refine ⟨.event _ rfl ?_, rfl, rfl⟩
    simp [TodoEvent.replay?, record, restore] at done ⊢
    exact done
  next => exact changes_restore old

theorem markDeleted_pending (old : Todo) (now : Instant) :
    ∃ e : TodoEvent, ((restore old).markDeleted now).pending = [e] ∧
      e.replay? (some old) = some none := by
  refine ⟨_, rfl, ?_⟩
  simp [TodoEvent.replay?, restore]

end TrackedTodo

end Workboard
