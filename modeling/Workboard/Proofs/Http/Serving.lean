import Workboard.Http.Access
import Workboard.Proofs.Auth.Token
import Workboard.Proofs.Service.Stored

/-!
What a server does with a request to its interface. It succeeds for members of the workspace that the request is
about; otherwise rows and outbox stay as they were.
-/

namespace Workboard

/-- Two moments between which nothing was stored. -/
structure Database.Kept (before after : Database) : Prop where
  rows : after.repository.rows = before.repository.rows
  records : after.outbox.records = before.outbox.records

theorem Database.Kept.refl (db : Database) : db.Kept db := ⟨rfl, rfl⟩

theorem Database.Kept.trans {a b c : Database} (h : a.Kept b) (h' : b.Kept c) : a.Kept c :=
  ⟨h'.rows.trans h.rows, h'.records.trans h.records⟩

namespace TodoService

/-- A piece of work that ends with an error has stored nothing. -/
theorem execute_kept {α : Type} {s : TodoService} {task : Task α} {e : ServiceError}
    (h : (s.execute task).1 = .error e) : s.db.Kept (s.execute task).2.db := by
  rw [execute_db]
  rcases Work.execute_cases task ServiceError.unitOfWork s.db .never false 0 s.clock with
    ⟨v, returned⟩ | ⟨stop, stops⟩
  · simp [execute, returned] at h
  · have undone := (Work.execute_of_stopsAt ServiceError.unitOfWork stops).2
    exact ⟨congrArg _ undone.restored.repository, undone.restored.records⟩

theorem delete_kept {s : TodoService} {id : TodoId} {e : ServiceError} (h : (s.delete id).1 = .error e) :
    s.db.Kept (s.delete id).2.db := by
  unfold delete at *
  rcases executed : s.execute (Task.delete s.mapper id) with ⟨e' | v, t⟩
  · have kept : s.db.Kept (s.execute (Task.delete s.mapper id)).2.db := execute_kept (e := e') (by rw [executed])
    rwa [executed] at kept
  · simp [executed, Except.map] at h

theorem get_kept (s : TodoService) (id : TodoId) : s.db.Kept (s.get id).2.db :=
  have same := (s.read_same _ _ _ (fetchOne_rows id)).1
  ⟨same.rows, same.records⟩

theorem list_kept (s : TodoService) (workspace : WorkspaceId) : s.db.Kept (s.list workspace).2.db :=
  have same := (s.read_same _ _ _ (fetchMany_rows workspace)).1
  ⟨same.rows, same.records⟩

end TodoService

theorem ApiError.ofService_refuses (e : ServiceError) : (HttpAnswer.ofError (.ofService e)).isSuccess = false := by
  cases e with
  | domain e => cases e <;> rfl
  | repository e => cases e <;> rfl
  | _ => rfl

namespace ApiServer

/-- What comes of serving: a value of which something is known, or a refusal after which nothing was stored. -/
def Ends {α : Type} (s : ApiServer) (r : Served α) (known : α → ApiServer → Prop) : Prop :=
  match r with
  | (.ok a, t) => known a t
  | (.error e, t) => e.isSuccess = false ∧ s.service.db.Kept t.service.db

variable {α β : Type} {s : ApiServer} {user : UserId} {workspace : WorkspaceId} {id : TodoId}

theorem Ends.next {r : Served α} {f : α → ApiServer → Served β} {known : α → ApiServer → Prop}
    {more : β → ApiServer → Prop} (h : s.Ends r known) (rest : ∀ a t, known a t → s.Ends (f a t) more) :
    s.Ends (Served.next r f) more := by
  rcases r with ⟨e | a, t⟩
  · exact h
  · exact rest a t h

theorem Ends.since {t : ApiServer} {r : Served α} {known : α → ApiServer → Prop} (h : t.Ends r known)
    (kept : s.service.db.Kept t.service.db) : s.Ends r known := by
  rcases r with ⟨e | a, u⟩
  · exact ⟨h.1, kept.trans h.2⟩
  · exact h

theorem ends_authorizedRooms (s : ApiServer) (user : UserId) :
    s.Ends (s.authorizedRooms user) fun rooms t => (s.authorizedRooms user).1 = .ok rooms ∧ t = s := by
  unfold authorizedRooms
  split
  · exact ⟨rfl, rfl⟩
  · exact ⟨rfl, .refl _⟩

theorem ends_requireMember (s : ApiServer) (user : UserId) (workspace : WorkspaceId) :
    s.Ends (s.requireMember user workspace) fun _ t => s.Admits user workspace ∧ t = s := by
  refine (s.ends_authorizedRooms user).next ?_
  rintro rooms t ⟨told, rfl⟩
  by_cases member : workspace.toText ∈ rooms
  · simp only [List.contains_iff_mem, member, if_true]
    exact ⟨⟨rooms, told, member⟩, rfl⟩
  · simp only [List.contains_iff_mem, member, if_false]
    exact ⟨rfl, .refl _⟩

theorem ends_use (s : ApiServer) {f : TodoService → Except ServiceError α × TodoService}
    (kept : ∀ e, (f s.service).1 = .error e → s.service.db.Kept (f s.service).2.db) :
    s.Ends (s.use f) fun a t => (f s.service).1 = .ok a ∧ t = { s with service := (f s.service).2 } := by
  unfold use
  rcases called : f s.service with ⟨e | a, t⟩
  · have unchanged := kept e (by rw [called])
    rw [called] at unchanged
    exact ⟨ApiError.ofService_refuses e, unchanged⟩
  · exact ⟨rfl, rfl⟩

theorem admits_service (s : ApiServer) (service : TodoService) (user : UserId) (workspace : WorkspaceId) :
    { s with service := service }.Admits user workspace ↔ s.Admits user workspace := by
  have same : ({ s with service := service }.authorizedRooms user).1 = (s.authorizedRooms user).1 := by
    unfold authorizedRooms
    dsimp only
    split <;> rfl
  simp only [Admits, same]

/-- A to-do is loaded for members of its workspace. -/
theorem ends_loadTodo (s : ApiServer) (user : UserId) (id : TodoId) :
    s.Ends (s.loadTodo user id) fun todo t => (s.service.get id).1 = .ok todo ∧ s.Admits user todo.workspaceId ∧
      t = { s with service := (s.service.get id).2 } := by
  refine (s.ends_use fun e _ => s.service.get_kept id).next ?_
  rintro todo _ ⟨found, rfl⟩
  refine ((ends_requireMember _ user todo.workspaceId).next ?_).since (s.service.get_kept id)
  rintro _ _ ⟨member, rfl⟩
  exact ⟨found, (admits_service s _ user _).mp member, rfl⟩

/-- An answer for a member of a workspace. -/
def Answered (s : ApiServer) (user : UserId) (workspace : WorkspaceId) (a : HttpAnswer) (_ : ApiServer) : Prop :=
  a.isSuccess = true ∧ s.Admits user workspace

theorem ends_createTodo (s : ApiServer) (user : UserId) (workspace : WorkspaceId) (title : String) :
    s.Ends (s.createTodo user workspace title) (s.Answered user workspace) := by
  refine (s.ends_requireMember user workspace).next ?_
  rintro _ _ ⟨member, rfl⟩
  refine (ends_use _ fun e => TodoService.execute_kept).next ?_
  rintro todo _ -
  exact ⟨rfl, member⟩

theorem ends_listTodos (s : ApiServer) (user : UserId) (workspace : WorkspaceId) :
    s.Ends (s.listTodos user workspace) (s.Answered user workspace) := by
  refine (s.ends_requireMember user workspace).next ?_
  rintro _ t ⟨member, rfl⟩
  refine (ends_use _ fun e _ => t.service.list_kept workspace).next ?_
  rintro todos _ -
  exact ⟨rfl, member⟩

theorem ends_showRevision (s : ApiServer) (user : UserId) (workspace : WorkspaceId) :
    s.Ends (s.showRevision user workspace) (s.Answered user workspace) := by
  refine (s.ends_requireMember user workspace).next ?_
  rintro _ t ⟨member, rfl⟩
  refine (ends_use _ fun e _ => ?_).next ?_
  · rw [TodoService.revision_db]
    exact .refl _
  · rintro n _ -
    exact ⟨rfl, member⟩

/-- An answer for a member of the workspace of a to-do. -/
def AnsweredFor (s : ApiServer) (user : UserId) (id : TodoId) (a : HttpAnswer) (t : ApiServer) : Prop :=
  ∃ todo, (s.service.get id).1 = .ok todo ∧ s.Answered user todo.workspaceId a t

theorem ends_getTodo (s : ApiServer) (user : UserId) (id : TodoId) :
    s.Ends (s.getTodo user id) (s.AnsweredFor user id) := by
  refine (s.ends_loadTodo user id).next ?_
  rintro todo _ ⟨found, member, rfl⟩
  exact ⟨todo, found, rfl, member⟩

theorem ends_changeTodo (s : ApiServer) (user : UserId) (id : TodoId)
    {change : TodoService → TodoId → Except ServiceError Todo × TodoService}
    (kept : ∀ t id e, (change t id).1 = .error e → t.db.Kept (change t id).2.db) :
    s.Ends (s.changeTodo user id change) (s.AnsweredFor user id) := by
  refine (s.ends_loadTodo user id).next ?_
  rintro todo _ ⟨found, member, rfl⟩
  refine ((ends_use _ fun e => kept _ _ e).next ?_).since (s.service.get_kept id)
  rintro changed _ -
  exact ⟨todo, found, rfl, member⟩

theorem ends_deleteTodo (s : ApiServer) (user : UserId) (id : TodoId) :
    s.Ends (s.deleteTodo user id) (s.AnsweredFor user id) := by
  refine (s.ends_loadTodo user id).next ?_
  rintro todo _ ⟨found, member, rfl⟩
  refine ((ends_use _ fun e => TodoService.delete_kept).next ?_).since (s.service.get_kept id)
  rintro changed _ -
  exact ⟨todo, found, rfl, member⟩

section input

variable {r : HttpRequest} {part : String}

/-- A request of a user brings a token of that user which is taken now. -/
theorem user_bears (h : r.user s.secret s.now = .ok user) :
    ∃ token claims, r.Bears token ∧ Token.verify s.secret token s.now = .ok claims ∧ claims.userId = user := by
  have taken {token : String} (h : (Credentials.verify s.secret token s.now).map (·.userId) = .ok user) :
      ∃ claims, Token.verify s.secret token s.now = .ok claims ∧ claims.userId = user := by
    unfold Credentials.verify at h
    rcases verified : Token.verify s.secret token s.now with e | claims <;> rw [verified] at h <;> cases h
    exact ⟨claims, rfl, rfl⟩
  unfold HttpRequest.user at h
  split at h
  next =>
    unfold Credentials.ofHeaders at h
    split at h
    · cases h
    next text found =>
      split at h
      next bearer =>
        obtain ⟨claims, verified, same⟩ := taken h
        obtain ⟨token, parts⟩ := List.isPrefixOf_iff_prefix.mp bearer
        refine ⟨_, claims, .header ?_, verified, same⟩
        rw [found, ← parts, List.drop_left]
        refine congrArg some (String.toList_inj.mp ?_)
        have rest : (String.ofList token).toList = token := String.toList_ofList
        rw [String.toList_append, rest]
        exact parts.symm
      · cases h
  next absent =>
    split at h
    next token given =>
      obtain ⟨claims, verified, same⟩ := taken h
      exact ⟨token, claims, .query (by simpa using absent) given, verified, same⟩
    · cases h

/-- A request that brings a token which is taken now is one of its user. -/
theorem user_of_bears {token : String} {claims : Claims} (bears : r.Bears token)
    (verified : Token.verify s.secret token s.now = .ok claims) : r.user s.secret s.now = .ok claims.userId := by
  have taken : (Credentials.verify s.secret token s.now).map (·.userId) = .ok claims.userId := by
    rw [Credentials.verify, verified]
    rfl
  unfold HttpRequest.user
  cases bears with
  | header found =>
    have present : r.headers.has Credentials.header = true := by
      unfold RequestHeaders.text? RequestHeaders.first? at found
      rcases first : r.headers.find? fun e => e.1 = Credentials.header with _ | e <;> rw [first] at found
      · cases found
      · have named := List.find?_some first
        exact List.any_eq_true.mpr ⟨e, List.mem_of_find?_eq_some first, named⟩
    rw [if_pos present, Credentials.ofHeaders_of_text? found, taken]
  | query absent given =>
    rw [absent, if_neg (by decide), given]
    exact taken

/-- Input that a request lacks is refused. -/
def Refuses {α : Type} (input : Except HttpAnswer α) : Prop := ∀ e, input = .error e → e.isSuccess = false

theorem Refuses.bind {input : Except HttpAnswer α} {f : α → Except HttpAnswer β} (h : Refuses input)
    (rest : ∀ a, Refuses (f a)) : Refuses (input >>= f) := by
  rcases input with e | a
  · rintro _ ⟨⟩
    exact h e rfl
  · exact rest a

theorem refuses_ok (a : α) : Refuses (.ok a) := nofun

theorem refuses_idOf (part : String) : Refuses (idOf part) := by
  rintro e refused
  unfold idOf at refused
  split at refused <;> cases refused
  rfl

theorem refuses_title (r : HttpRequest) : Refuses r.title := by
  rintro e refused
  unfold HttpRequest.title at refused
  split at refused
  · cases refused
    rfl
  · split at refused <;> cases refused <;> rfl

theorem user_unauthorized {e : ApiError} (h : r.user s.secret s.now = .error e) : e.status = 401 := by
  have invalid {token : String} (h : (Credentials.verify s.secret token s.now).map (·.userId) = .error e) :
      e.status = 401 := by
    unfold Credentials.verify at h
    rcases verified : Token.verify s.secret token s.now with e' | claims <;> rw [verified] at h <;> cases h
    rfl
  unfold HttpRequest.user at h
  split at h
  next =>
    unfold Credentials.ofHeaders at h
    split at h
    · cases h
      rfl
    · split at h
      · exact invalid h
      · cases h
        rfl
  next =>
    split at h
    · exact invalid h
    · cases h
      rfl

theorem userOf_ok (h : s.userOf r = .ok user) : r.user s.secret s.now = .ok user := by
  unfold userOf at h
  rcases found : r.user s.secret s.now with e | u <;> rw [found] at h <;> cases h
  rfl

theorem refuses_userOf (s : ApiServer) (r : HttpRequest) : Refuses (s.userOf r) := by
  rintro e refused
  unfold userOf at refused
  rcases found : r.user s.secret s.now with e' | u <;> rw [found] at refused <;> cases refused
  have unauthorized := user_unauthorized found
  simp [HttpAnswer.isSuccess, HttpAnswer.ofError, unauthorized]

theorem refuses_userAndId (s : ApiServer) (r : HttpRequest) (part : String) : Refuses (s.userAndId r part) :=
  (s.refuses_userOf r).bind fun _ => (refuses_idOf part).bind fun _ => refuses_ok _

theorem refuses_userIdTitle (s : ApiServer) (r : HttpRequest) (part : String) : Refuses (s.userIdTitle r part) :=
  (s.refuses_userAndId r part).bind fun _ => (refuses_title r).bind fun _ => refuses_ok _

theorem userAndId_ok {id : Uuid} (h : s.userAndId r part = .ok (user, id)) :
    r.user s.secret s.now = .ok user ∧ HttpRequest.pathId? part = some id := by
  unfold userAndId at h
  rcases found : s.userOf r with e | u <;> rw [found] at h
  · cases h
  unfold idOf at h
  rcases read : HttpRequest.pathId? part with _ | i <;> rw [read] at h <;> cases h
  exact ⟨userOf_ok found, rfl⟩

theorem userIdTitle_ok {id : Uuid} {title : String} (h : s.userIdTitle r part = .ok (user, id, title)) :
    r.user s.secret s.now = .ok user ∧ HttpRequest.pathId? part = some id := by
  unfold userIdTitle at h
  rcases found : s.userAndId r part with e | ⟨u, i⟩ <;> rw [found] at h
  · cases h
  rcases read : r.title with e | t
  · simp [read, bind, Except.bind] at h
  · simp only [read, bind, Except.bind, pure, Except.pure, Except.ok.injEq, Prod.mk.injEq] at h
    obtain ⟨rfl, rfl, -⟩ := h
    exact userAndId_ok found

theorem ends_withInput {input : Except HttpAnswer α} {act : α → Served HttpAnswer}
    {known : HttpAnswer → ApiServer → Prop} (refuses : Refuses input)
    (acts : ∀ a, input = .ok a → s.Ends (act a) known) : s.Ends (s.withInput input act) known := by
  rcases input with e | a
  · exact ⟨refuses e rfl, .refl _⟩
  · exact acts a rfl

theorem ends_withId {act : UserId × Uuid → Served HttpAnswer} {known : HttpAnswer → ApiServer → Prop}
    (acts : ∀ user id, r.user s.secret s.now = .ok user → HttpRequest.pathId? part = some id →
      s.Ends (act (user, id)) known) : s.Ends (s.withInput (s.userAndId r part) act) known := by
  refine ends_withInput (s.refuses_userAndId r part) ?_
  rintro ⟨user, id⟩ taken
  obtain ⟨own, read⟩ := userAndId_ok taken
  exact acts user id own read

theorem ends_withTitle {act : UserId × Uuid × String → Served HttpAnswer} {known : HttpAnswer → ApiServer → Prop}
    (acts : ∀ user id title, r.user s.secret s.now = .ok user → HttpRequest.pathId? part = some id →
      s.Ends (act (user, id, title)) known) : s.Ends (s.withInput (s.userIdTitle r part) act) known := by
  refine ends_withInput (s.refuses_userIdTitle r part) ?_
  rintro ⟨user, id, title⟩ taken
  obtain ⟨own, read⟩ := userIdTitle_ok taken
  exact acts user id title own read

/-- An answer for a user with a valid token who is a member of the workspace that a route is about. -/
def Authorized (s : ApiServer) (r : HttpRequest) (route : Route) (a : HttpAnswer) (_ : ApiServer) : Prop :=
  a.isSuccess = true ∧ ∃ user workspace, r.user s.secret s.now = .ok user ∧ s.Concerns route workspace ∧
    s.Admits user workspace

variable {route : Route} {known more : α → ApiServer → Prop}

theorem Ends.mono {a : Served α} (h : s.Ends a known) (weaker : ∀ v t, known v t → more v t) : s.Ends a more := by
  rcases a with ⟨e | v, t⟩
  · exact h
  · exact weaker v t h

theorem Ends.authorized {a : Served HttpAnswer} (h : s.Ends a (s.Answered user workspace))
    (own : r.user s.secret s.now = .ok user) (concerns : s.Concerns route workspace) :
    s.Ends a (s.Authorized r route) :=
  h.mono fun _ _ answered => ⟨answered.1, user, workspace, own, concerns, answered.2⟩

theorem Ends.authorizedFor {a : Served HttpAnswer} (h : s.Ends a (s.AnsweredFor user id))
    (own : r.user s.secret s.now = .ok user)
    (concerns : ∀ todo, (s.service.get id).1 = .ok todo → s.Concerns route todo.workspaceId) :
    s.Ends a (s.Authorized r route) := by
  refine h.mono ?_
  rintro _ _ ⟨todo, found, success, admitted⟩
  exact ⟨success, user, todo.workspaceId, own, concerns todo found, admitted⟩

/-- Serving a request to the interface ends with an answer for a member, or with a refusal that stores nothing. -/
theorem ends_serve (s : ApiServer) (r : HttpRequest) (api : route.isApi = true) :
    s.Ends (s.serve r route) (s.Authorized r route) := by
  cases route with
  | todos part =>
    rw [serve]
    split
    · exact ends_withTitle fun user id title own read =>
        (s.ends_createTodo user ⟨id⟩ title).authorized own (.todos read)
    · exact ends_withId fun user id own read => (s.ends_listTodos user ⟨id⟩).authorized own (.todos read)
  | revision part =>
    exact ends_withId fun user id own read => (s.ends_showRevision user ⟨id⟩).authorized own (.revision read)
  | todo part =>
    rw [serve]
    split
    · refine ends_withTitle fun user id title own read => ?_
      exact (s.ends_changeTodo user ⟨id⟩ fun t id e => TodoService.execute_kept).authorizedFor own fun _ => .todo read
    · split
      · exact ends_withId fun user id own read => (s.ends_deleteTodo user ⟨id⟩).authorizedFor own fun _ => .todo read
      · exact ends_withId fun user id own read => (s.ends_getTodo user ⟨id⟩).authorizedFor own fun _ => .todo read
  | complete part =>
    refine ends_withId fun user id own read => ?_
    exact (s.ends_changeTodo user ⟨id⟩ fun t id e => TodoService.execute_kept).authorizedFor own fun _ => .complete read
  | reopen part =>
    refine ends_withId fun user id own read => ?_
    exact (s.ends_changeTodo user ⟨id⟩ fun t id e => TodoService.execute_kept).authorizedFor own fun _ => .reopen read
  | _ => cases api

/-- A request that succeeds is one of a member; after any other, rows and outbox are as they were. -/
theorem handle_cases (s : ApiServer) (leads : Route.ofPath? r.path = some route) (api : route.isApi = true) :
    (s.handle r).1.isSuccess = true ∧ (∃ user workspace, r.user s.secret s.now = .ok user ∧
        s.Concerns route workspace ∧ s.Admits user workspace) ∨
      (s.handle r).1.isSuccess = false ∧ s.service.db.Kept (s.handle r).2.service.db := by
  have ends := s.ends_serve r api
  rw [handle, leads]
  dsimp only
  split
  · exact .inr ⟨rfl, .refl _⟩
  · rcases served : s.serve r route with ⟨e | a, t⟩ <;> rw [served] at ends
    · refine .inr ⟨?_, ends.2⟩
      split <;> exact ends.1
    · refine .inl ⟨?_, ends.2⟩
      split <;> exact ends.1

end input

end ApiServer

end Workboard
