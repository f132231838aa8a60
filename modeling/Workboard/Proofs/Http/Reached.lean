import Workboard.Http.Access
import Workboard.Proofs.Service.Homes

/-!
Servers that are reached from a start on stored to-dos with an empty cache: each to-do is in one workspace for all
time, whatever requests come and whatever happens beside them.
-/

namespace Workboard.ApiServer

variable {α β : Type} {P : TodoService → Prop} {s : ApiServer}

section keeps

theorem next_keeps {r : Served α} {f : α → ApiServer → Served β} (h : P r.2.service)
    (rest : ∀ a t, P t.service → P (f a t).2.service) : P (Served.next r f).2.service := by
  rcases r with ⟨e | a, t⟩
  · exact h
  · exact rest a t h

theorem authorizedRooms_service (s : ApiServer) (user : UserId) : (s.authorizedRooms user).2.service = s.service := by
  unfold authorizedRooms
  split <;> rfl

theorem requireMember_keeps (h : P s.service) (user : UserId) (workspace : WorkspaceId) :
    P (s.requireMember user workspace).2.service :=
  next_keeps (by rwa [authorizedRooms_service]) fun _ _ h => h

theorem loadTodo_keeps (get : ∀ t id, P t → P (t.get id).2) (h : P s.service) (user : UserId) (id : TodoId) :
    P (s.loadTodo user id).2.service :=
  next_keeps (get s.service id h) fun _ _ h => next_keeps (requireMember_keeps h user _) fun _ _ h => h

theorem changeTodo_keeps (get : ∀ t id, P t → P (t.get id).2)
    {change : TodoService → TodoId → Except ServiceError Todo × TodoService} (changes : ∀ t id, P t → P (change t id).2)
    (h : P s.service) (user : UserId) (id : TodoId) : P (s.changeTodo user id change).2.service :=
  next_keeps (loadTodo_keeps get h user id) fun todo t h => next_keeps (changes t.service todo.id h) fun _ _ h => h

theorem withInput_keeps {input : Except HttpAnswer α} {act : α → Served HttpAnswer} (h : P s.service)
    (acts : ∀ a, P (act a).2.service) : P (s.withInput input act).2.service := by
  rcases input with e | a
  · exact h
  · exact acts a

/-- What holds of a service whatever happens to it, holds of that of a server. -/
theorem serve_keeps (after : ∀ t e, P t → P (t.after e)) (revision : ∀ t workspace, P t → P (t.revision workspace).2)
    (h : P s.service) (r : HttpRequest) (route : Route) : P (s.serve r route).2.service := by
  have get : ∀ t id, P t → P (t.get id).2 := fun t id => after t (.get id)
  cases route with
  | health => exact h
  | metrics => exact h
  | socket =>
    refine withInput_keeps h fun user => ?_
    split
    · exact h
    · refine next_keeps (by rwa [authorizedRooms_service]) fun rooms t h => ?_
      dsimp only
      split <;> exact h
  | todos part =>
    rw [serve]
    split
    · exact withInput_keeps h fun (user, id, title) => next_keeps (requireMember_keeps h user ⟨id⟩) fun _ t h =>
        next_keeps (after t.service (.create ⟨id⟩ title) h) fun _ _ h => h
    · exact withInput_keeps h fun (user, id) => next_keeps (requireMember_keeps h user ⟨id⟩) fun _ t h =>
        next_keeps (after t.service (.list ⟨id⟩) h) fun _ _ h => h
  | revision part =>
    exact withInput_keeps h fun (user, id) => next_keeps (requireMember_keeps h user ⟨id⟩) fun _ t h =>
      next_keeps (revision t.service ⟨id⟩ h) fun _ _ h => h
  | todo part =>
    rw [serve]
    split
    · exact withInput_keeps h fun (user, id, title) =>
        changeTodo_keeps get (fun t id => after t (.rename id title)) h user ⟨id⟩
    · split
      · exact withInput_keeps h fun (user, id) => next_keeps (loadTodo_keeps get h user ⟨id⟩) fun todo t h =>
          next_keeps (after t.service (.delete todo.id) h) fun _ _ h => h
      · exact withInput_keeps h fun (user, id) => next_keeps (loadTodo_keeps get h user ⟨id⟩) fun _ _ h => h
  | complete part =>
    exact withInput_keeps h fun (user, id) => changeTodo_keeps get (fun t id => after t (.complete id)) h user ⟨id⟩
  | reopen part =>
    exact withInput_keeps h fun (user, id) => changeTodo_keeps get (fun t id => after t (.reopen id)) h user ⟨id⟩

theorem handle_keeps (after : ∀ t e, P t → P (t.after e)) (revision : ∀ t workspace, P t → P (t.revision workspace).2)
    (h : P s.service) (r : HttpRequest) : P (s.handle r).2.service := by
  unfold handle
  split
  · exact h
  · split
    · exact h
    next route _ _ =>
      have served := serve_keeps after revision h r route
      rcases answer : s.serve r route with ⟨e | a, t⟩ <;> rw [answer] at served <;> exact served

end keeps

/-- A server that was just started on stored to-dos: nothing is cached or on its way into the cache, and cached to-dos
can be read back. -/
structure Started (s : ApiServer) : Prop where
  proper : TodoService.Proper s.service.db
  cold : ∀ c, s.service.cache = some c → c.aside.store.values = [] ∧ c.aside.flights.opened = []
  no_fills : s.service.fills = []
  whole : ∀ c, s.service.cache = some c → ∀ t, c.form.whole? (c.form.write t) = some t.asWritten

/-- A server at some moment after its start, with identifiers that differ. -/
def Reached (s : ApiServer) : Prop :=
  ∃ (start : ApiServer) (history : List ApiEvent), start.Started ∧ start.run history = s ∧ s.service.db.ids.Distinct

theorem Started.lodged (h : s.Started) : s.service.Lodged := by
  intro _
  refine ⟨fun id => ((s.service.db.repository.find? id).map (·.workspaceId)).getD ⟨id.uuid⟩, ?_, h.proper.single, ?_⟩
  · intro t mem
    exact ⟨by simp [Repository.find?_of_mem h.proper.single mem], h.proper.drawn t mem⟩
  · intro c cached
    obtain ⟨empty, grounded⟩ := h.cold c cached
    refine ⟨h.whole c cached, grounded, ?_, by simp [h.no_fills]⟩
    intro id v found
    rw [empty] at found
    cases found

theorem lodged_after (h : s.service.Lodged) (e : ApiEvent) : (s.after e).service.Lodged := by
  cases e with
  | request r =>
    refine handle_keeps (fun t e lodged => lodged.after e) ?_ h r
    intro t workspace lodged distinct
    rw [TodoService.revision_db] at distinct
    obtain ⟨home, housed⟩ := lodged distinct
    exact ⟨home, housed.revision workspace⟩
  | service e => exact h.after e
  | outbox o =>
    intro distinct
    obtain ⟨home, housed⟩ := h distinct
    exact ⟨home, housed.rows, housed.single, housed.cache⟩
  | cacheFaults failing faults =>
    intro distinct
    obtain ⟨home, housed⟩ := h distinct
    exact ⟨home, housed.onStore (f := fun m => { m with failing := failing, faults := faults }) fun _ => rfl⟩
  | access grants permissionFaults now => exact h
  | connections hub ids => exact h

theorem run_lodged (h : s.service.Lodged) (history : List ApiEvent) : (s.run history).service.Lodged := by
  induction history generalizing s with
  | nil => exact h
  | cons e history ih => exact ih (lodged_after h e)

theorem Reached.housed (h : s.Reached) : ∃ home, s.service.Housed home := by
  obtain ⟨start, history, started, rfl, distinct⟩ := h
  exact run_lodged started.lodged history distinct

end Workboard.ApiServer
