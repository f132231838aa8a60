import Workboard.Proofs.Http.Reached
import Workboard.Proofs.Http.Serving
import Workboard.Proofs.Service.Unseen

/-!
Two servers that differ in what a user cannot see, side by side. A request of that user has the same answer from
both.
-/

namespace Workboard.ApiServer

variable {α β : Type}

/-- Outcomes that are the same. If they are values, something is known of the servers after them. -/
def Alike (r r' : Served α) (known : α → ApiServer → ApiServer → Prop) : Prop :=
  r'.1 = r.1 ∧ ∀ a, r.1 = .ok a → known a r.2 r'.2

theorem Alike.next {r r' : Served α} {f f' : α → ApiServer → Served β} {known : α → ApiServer → ApiServer → Prop}
    {more : β → ApiServer → ApiServer → Prop} (h : Alike r r' known)
    (rest : ∀ a t t', known a t t' → Alike (f a t) (f' a t') more) :
    Alike (Served.next r f) (Served.next r' f') more := by
  obtain ⟨outcome, t⟩ := r
  obtain ⟨outcome', t'⟩ := r'
  obtain ⟨rfl, after⟩ := h
  rcases outcome' with e | a
  · exact ⟨rfl, nofun⟩
  · exact rest a t t' (after a rfl)

/-- The same value, of which nothing more is asked. -/
theorem Alike.ok (a : α) (t t' : ApiServer) : Alike (.ok a, t) (.ok a, t') fun _ _ _ => True :=
  ⟨rfl, fun _ _ => trivial⟩

variable (s : ApiServer) (service : TodoService) (user : UserId)

/-- Membership does not depend on the service. -/
theorem alike_requireMember (workspace : WorkspaceId) :
    Alike (s.requireMember user workspace) ({ s with service := service }.requireMember user workspace)
      fun _ t t' => s.Sees user workspace ∧ t = s ∧ t' = { s with service := service } := by
  unfold requireMember authorizedRooms
  dsimp only
  rcases s.permissionFaults with _ | n
  · by_cases member : workspace.toText ∈ s.grants.rooms user
    · simp only [Served.next, List.contains_iff_mem, member, if_true]
      exact ⟨rfl, fun _ _ => ⟨member, rfl, rfl⟩⟩
    · simp only [Served.next, List.contains_iff_mem, member, if_false]
      exact ⟨rfl, nofun⟩
  · exact ⟨rfl, nofun⟩

variable {s} {service} {user}

theorem alike_use {f f' : TodoService → Except ServiceError α × TodoService} (same : (f' service).1 = (f s.service).1) :
    Alike (s.use f) ({ s with service := service }.use f') fun a t t' => (f s.service).1 = .ok a ∧
      t = { s with service := (f s.service).2 } ∧ t' = { s with service := (f' service).2 } := by
  unfold use
  dsimp only
  rw [same]
  refine ⟨rfl, fun a found => ⟨?_, rfl, rfl⟩⟩
  rcases called : (f s.service).1 with e | b <;> rw [called] at found <;> cases found
  rfl

theorem use_ok {f : TodoService → Except ServiceError α × TodoService} {a : α} (h : (f s.service).1 = .ok a) :
    s.use f = (.ok a, { s with service := (f s.service).2 }) := by
  unfold use
  dsimp only
  rw [h]
  rfl

section unseen

variable {home : TodoId → WorkspaceId} {rows : List Todo} {copies : Entries (Expiring Bytes)}
  {fills : List (Fill CachedTodos)} {workspace : WorkspaceId}

/-- A to-do that is loaded is the same on both sides. One that differs is refused on both. -/
theorem alike_loadTodo (h : s.service.Housed home) (differ : s.service.DifferUnseen (s.Sees user) rows copies)
    (id : TodoId) :
    Alike (s.loadTodo user id) ((s.withTodos rows copies fills).loadTodo user id) fun todo t t' =>
      (s.service.get id).1 = .ok todo ∧ s.Sees user todo.workspaceId ∧ t = { s with service := (s.service.get id).2 } ∧
        t' = { s with service := ((s.service.withTodos rows copies fills).get id).2 } := by
  rcases h.get_unseen differ fills id with same | ⟨todo, other, found, found', alike⟩
  · refine (alike_use same).next ?_
    rintro todo _ _ ⟨found, rfl, rfl⟩
    refine (alike_requireMember _ _ user todo.workspaceId).next ?_
    rintro ⟨⟩ _ _ ⟨seen, rfl, rfl⟩
    exact ⟨rfl, fun a own => Except.ok.inj own ▸ ⟨found, seen, rfl, rfl⟩⟩
  · have loads : s.use (fun t => t.get id) = (.ok todo, { s with service := (s.service.get id).2 }) := use_ok found
    have loads' : (s.withTodos rows copies fills).use (fun t => t.get id) =
        (.ok other, { s with service := ((s.service.withTodos rows copies fills).get id).2 }) :=
      use_ok (s := s.withTodos rows copies fills) found'
    unfold loadTodo
    rw [loads, loads']
    dsimp only [Served.next]
    rw [alike.workspace_eq]
    refine (alike_requireMember _ _ user todo.workspaceId).next ?_
    rintro ⟨⟩ _ _ ⟨seen, rfl, rfl⟩
    obtain rfl := alike.eq seen
    exact ⟨rfl, fun a own => Except.ok.inj own ▸ ⟨found, seen, rfl, rfl⟩⟩

theorem alike_createTodo (title : String) :
    Alike (s.createTodo user workspace title) ((s.withTodos rows copies fills).createTodo user workspace title)
      fun _ _ _ => True := by
  refine (alike_requireMember s _ user workspace).next ?_
  rintro ⟨⟩ _ _ ⟨-, rfl, rfl⟩
  refine (alike_use (TodoService.create_unseen _ rows copies fills workspace title)).next ?_
  rintro todo t t' -
  exact .ok _ t t'

theorem alike_listTodos (h : s.service.Housed home) (differ : s.service.DifferUnseen (s.Sees user) rows copies) :
    Alike (s.listTodos user workspace) ((s.withTodos rows copies fills).listTodos user workspace)
      fun _ _ _ => True := by
  refine (alike_requireMember s _ user workspace).next ?_
  rintro ⟨⟩ _ _ ⟨seen, rfl, rfl⟩
  refine (alike_use (h.list_unseen differ fills seen)).next ?_
  rintro todos t t' -
  exact .ok _ t t'

theorem alike_showRevision :
    Alike (s.showRevision user workspace) ((s.withTodos rows copies fills).showRevision user workspace)
      fun _ _ _ => True := by
  refine (alike_requireMember s _ user workspace).next ?_
  rintro ⟨⟩ _ _ ⟨-, rfl, rfl⟩
  refine (alike_use (TodoService.revision_unseen _ rows copies fills workspace)).next ?_
  rintro n t t' -
  exact .ok _ t t'

variable (h : s.service.Housed home) (differ : s.service.DifferUnseen (s.Sees user) rows copies) (id : TodoId)

include h differ

theorem alike_getTodo :
    Alike (s.getTodo user id) ((s.withTodos rows copies fills).getTodo user id) fun _ _ _ => True := by
  refine (alike_loadTodo h differ id).next ?_
  rintro todo t t' -
  exact .ok _ t t'

/-- Work that looks at no other to-do does the same on both sides. -/
theorem alike_changeTodo (task : TodoId → EventMapper → TodoService.Task Todo)
    (looks : ∀ id mapper, (task id mapper).LooksOnlyAt [id]) :
    Alike (s.changeTodo user id fun t id => t.execute (task id t.mapper))
      ((s.withTodos rows copies fills).changeTodo user id fun t id => t.execute (task id t.mapper))
      fun _ _ _ => True := by
  refine (alike_loadTodo h differ id).next ?_
  rintro todo _ _ ⟨found, seen, rfl, rfl⟩
  refine (alike_use (h.execute_unseen differ fills found seen (looks todo.id))).next ?_
  rintro changed t t' -
  exact .ok _ t t'

theorem alike_deleteTodo :
    Alike (s.deleteTodo user id) ((s.withTodos rows copies fills).deleteTodo user id) fun _ _ _ => True := by
  refine (alike_loadTodo h differ id).next ?_
  rintro todo _ _ ⟨found, seen, rfl, rfl⟩
  have looks : ∀ mapper, (TodoService.Task.delete mapper todo.id).LooksOnlyAt [todo.id] := fun mapper =>
    TodoService.Task.delete_looks mapper todo.id
  have same := h.execute_unseen differ fills found seen looks
  refine (alike_use (congrArg (Except.map fun _ => ()) same)).next ?_
  rintro ⟨⟩ t t' -
  exact .ok _ t t'

omit h differ in
/-- What was taken from a request of the user is the same on both sides. -/
theorem alike_withId {r : HttpRequest} {part : String} {act act' : UserId × Uuid → Served HttpAnswer}
    (own : r.user s.secret s.now = .ok user)
    (acts : ∀ id, Alike (act (user, id)) (act' (user, id)) fun _ _ _ => True) :
    Alike (s.withInput (s.userAndId r part) act)
      ((s.withTodos rows copies fills).withInput ((s.withTodos rows copies fills).userAndId r part) act')
      fun _ _ _ => True := by
  rw [show (s.withTodos rows copies fills).userAndId r part = s.userAndId r part from rfl]
  rcases taken : s.userAndId r part with e | ⟨other, id⟩
  · exact ⟨rfl, nofun⟩
  · obtain rfl := Except.ok.inj (own.symm.trans (userAndId_ok taken).1)
    exact acts id

omit h differ in
theorem alike_withTitle {r : HttpRequest} {part : String} {act act' : UserId × Uuid × String → Served HttpAnswer}
    (own : r.user s.secret s.now = .ok user)
    (acts : ∀ id title, Alike (act (user, id, title)) (act' (user, id, title)) fun _ _ _ => True) :
    Alike (s.withInput (s.userIdTitle r part) act)
      ((s.withTodos rows copies fills).withInput ((s.withTodos rows copies fills).userIdTitle r part) act')
      fun _ _ _ => True := by
  rw [show (s.withTodos rows copies fills).userIdTitle r part = s.userIdTitle r part from rfl]
  rcases taken : s.userIdTitle r part with e | ⟨other, id, title⟩
  · exact ⟨rfl, nofun⟩
  · obtain rfl := Except.ok.inj (own.symm.trans (userIdTitle_ok taken).1)
    exact acts id title

omit id in
theorem alike_serve {r : HttpRequest} {route : Route} (own : r.user s.secret s.now = .ok user)
    (api : route.isApi = true) :
    Alike (s.serve r route) ((s.withTodos rows copies fills).serve r route) fun _ _ _ => True := by
  cases route with
  | todos part =>
    rw [serve, serve]
    split
    · exact alike_withTitle own fun id title => alike_createTodo title
    · exact alike_withId own fun id => alike_listTodos h differ
  | revision part =>
    rw [serve, serve]
    exact alike_withId own fun id => alike_showRevision
  | todo part =>
    rw [serve, serve]
    split
    · refine alike_withTitle own fun id title => ?_
      exact alike_changeTodo h differ ⟨id⟩ (fun id mapper => .rename mapper id title) fun id mapper =>
        TodoService.Task.mutate_looks mapper id _
    · split
      · exact alike_withId own fun id => alike_deleteTodo h differ ⟨id⟩
      · exact alike_withId own fun id => alike_getTodo h differ ⟨id⟩
  | complete part =>
    rw [serve, serve]
    refine alike_withId own fun id => ?_
    exact alike_changeTodo h differ ⟨id⟩ (fun id mapper => .complete mapper id) fun id mapper =>
      TodoService.Task.mutate_looks mapper id _
  | reopen part =>
    rw [serve, serve]
    refine alike_withId own fun id => ?_
    exact alike_changeTodo h differ ⟨id⟩ (fun id mapper => .reopen mapper id) fun id mapper =>
      TodoService.Task.mutate_looks mapper id _
  | _ => cases api

omit id in
/-- A user is answered as if what is unseen were not different. -/
theorem handle_unseen {r : HttpRequest} {route : Route} (own : r.user s.secret s.now = .ok user)
    (leads : Route.ofPath? r.path = some route) (api : route.isApi = true) :
    ((s.withTodos rows copies fills).handle r).1 = (s.handle r).1 := by
  have same : ((s.withTodos rows copies fills).serve r route).1 = (s.serve r route).1 :=
    (alike_serve h differ own api).1
  rw [handle, handle, leads]
  dsimp only
  split
  · rfl
  · rcases served : s.serve r route with ⟨outcome, t⟩
    rcases served' : (s.withTodos rows copies fills).serve r route with ⟨outcome', t'⟩
    rw [served, served'] at same
    obtain rfl : outcome' = outcome := same
    rcases outcome' with e | a <;> rfl

end unseen

end Workboard.ApiServer
