import Mathlib.Data.List.Forall2
import Workboard.Http.Server
import Workboard.Service.History

/-!
Who may see what over the HTTP interface: the token that a request brings, the workspace that it is about, and what of
a server cannot be seen by a user.
-/

namespace Workboard

/-- Whether a path leads to the to-dos of workspaces. -/
def Route.isApi : Route → Bool
  | .health | .metrics | .socket => false
  | _ => true

/-- A request brings a token in its header for authorization; if it has no such header, in its query. -/
inductive HttpRequest.Bears (r : HttpRequest) (token : String) : Prop
  | header : r.headers.text? Credentials.header = some ("Bearer " ++ token) → r.Bears token
  | query : r.headers.has Credentials.header = false → r.queryToken? = some token → r.Bears token

/-- The same to-do, or one in its place that differs in what cannot be seen. -/
def Todo.LooksAs (sees : WorkspaceId → Prop) (t u : Todo) : Prop :=
  u = t ∨ u.id = t.id ∧ u.workspaceId = t.workspaceId ∧ ¬ sees t.workspaceId

/-- The same bytes, or other bytes for what cannot be seen: for one to-do, another in its place. -/
def TodoCache.LooksAs (c : TodoCache) (sees : WorkspaceId → Prop) (v w : String × Expiring Bytes) : Prop :=
  w.1 = v.1 ∧ w.2.expires = v.2.expires ∧
    (w.2.content = v.2.content ∨
      (∃ id t u, v.1 = c.aside.fullKey (CachedTodos.todoKey id) ∧
        (CachedTodos.oneCodec c.form).decode v.2.content = .ok (.one t) ∧
        (CachedTodos.oneCodec c.form).decode w.2.content = .ok (.one u) ∧ t.LooksAs sees u) ∨
      ∃ workspace, v.1 = c.aside.fullKey (CachedTodos.listKey workspace) ∧ ¬ sees workspace)

/-- A service with other rows, other cached copies and other fills under way. -/
def TodoService.withTodos (s : TodoService) (rows : List Todo) (copies : Entries (Expiring Bytes))
    (fills : List (Fill CachedTodos)) : TodoService :=
  { s.onStore fun m => { m with values := copies } with
    db := { s.db with repository := { s.db.repository with rows := rows } }
    fills := fills }

/-- Rows and cached copies that differ from those of a service in what cannot be seen. -/
structure TodoService.DifferUnseen (s : TodoService) (sees : WorkspaceId → Prop) (rows : List Todo)
    (copies : Entries (Expiring Bytes)) : Prop where
  rows : List.Forall₂ (Todo.LooksAs sees) s.db.repository.rows rows
  copies : ∀ c, s.cache = some c → List.Forall₂ (c.LooksAs sees) c.aside.store.values copies

namespace ApiServer

/-- The rooms of a user are told now, and that of a workspace is among them. -/
def Admits (s : ApiServer) (user : UserId) (workspace : WorkspaceId) : Prop :=
  ∃ rooms, (s.authorizedRooms user).1 = .ok rooms ∧ workspace.toText ∈ rooms

/-- The workspace that a route is about: the one in its path, or that of the to-do in its path. -/
inductive Concerns (s : ApiServer) : Route → WorkspaceId → Prop
  | todos {part : String} {id : Uuid} : HttpRequest.pathId? part = some id → Concerns s (.todos part) ⟨id⟩
  | revision {part : String} {id : Uuid} : HttpRequest.pathId? part = some id → Concerns s (.revision part) ⟨id⟩
  | todo {part : String} {id : Uuid} {t : Todo} : HttpRequest.pathId? part = some id →
      (s.service.get ⟨id⟩).1 = .ok t → Concerns s (.todo part) t.workspaceId
  | complete {part : String} {id : Uuid} {t : Todo} : HttpRequest.pathId? part = some id →
      (s.service.get ⟨id⟩).1 = .ok t → Concerns s (.complete part) t.workspaceId
  | reopen {part : String} {id : Uuid} {t : Todo} : HttpRequest.pathId? part = some id →
      (s.service.get ⟨id⟩).1 = .ok t → Concerns s (.reopen part) t.workspaceId

def Sees (s : ApiServer) (user : UserId) (workspace : WorkspaceId) : Prop :=
  workspace.toText ∈ s.grants.rooms user

def withTodos (s : ApiServer) (rows : List Todo) (copies : Entries (Expiring Bytes))
    (fills : List (Fill CachedTodos)) : ApiServer :=
  { s with service := s.service.withTodos rows copies fills }

end ApiServer

/-!
What happens to a server over time: requests, work on the service beside them, and changes of what users may see.
-/

inductive ApiEvent where
  | request (r : HttpRequest)
  | service (e : ServiceEvent)
  /-- Relays work on the outbox. -/
  | outbox (o : OutboxStore)
  /-- Calls of the cache's store are to fail, or no longer fail. -/
  | cacheFaults (failing : Bool) (faults : Faults CacheCall)
  | access (grants : RoomGrants) (permissionFaults : Nat) (now : Int)
  | connections (hub : Hub) (ids : IdSupply)

namespace ApiServer

def after (s : ApiServer) : ApiEvent → ApiServer
  | .request r => (s.handle r).2
  | .service e => { s with service := s.service.after e }
  | .outbox o => { s with service := s.service.onOutbox fun _ => o }
  | .cacheFaults failing faults =>
    { s with service := s.service.onStore fun m => { m with failing := failing, faults := faults } }
  | .access grants permissionFaults now =>
    { s with grants := grants, permissionFaults := permissionFaults, now := now }
  | .connections hub ids => { s with hub := hub, ids := ids }

def run (s : ApiServer) (history : List ApiEvent) : ApiServer := history.foldl after s

end ApiServer

end Workboard
