import Workboard.Http.Request
import Workboard.Realtime.Hub
import Workboard.Service.Basic

/-!
The HTTP interface: its paths with the methods that each allows, and what a request does. A request is checked for
its token, the identifier in its path, its body and the membership of its user, in this order, before it can change
anything.
-/

namespace Workboard

/-- What a path leads to; parts of the path are as they are written. -/
inductive Route where
  | health
  | metrics
  | socket
  | todos (workspace : String)
  | revision (workspace : String)
  | todo (id : String)
  | complete (id : String)
  | reopen (id : String)
  deriving DecidableEq

namespace Route

def ofParts? : List String → Option Route
  | ["health"] => some .health
  | ["metrics"] => some .metrics
  | ["ws"] => some .socket
  | ["api", "v1", "workspaces", w, "todos"] => some (.todos w)
  | ["api", "v1", "workspaces", w, "revision"] => some (.revision w)
  | ["api", "v1", "todos", id] => some (.todo id)
  | ["api", "v1", "todos", id, "complete"] => some (.complete id)
  | ["api", "v1", "todos", id, "reopen"] => some (.reopen id)
  | _ => none

/-- The parts of a path must not be empty. -/
def ofPath? (path : List Char) : Option Route :=
  match path.splitOn '/' with
  | [] :: parts => if parts.any (·.isEmpty) then none else ofParts? (parts.map String.ofList)
  | _ => none

/-- A path that can be read can also be asked for without the answer's body. -/
def methods : Route → List String
  | .health | .metrics | .socket | .revision _ => ["GET", "HEAD"]
  | .todos _ => ["POST", "GET", "HEAD"]
  | .todo _ => ["GET", "HEAD", "PATCH", "DELETE"]
  | .complete _ | .reopen _ => ["POST"]

def allow (r : Route) : String := ",".intercalate r.methods

end Route

structure ApiServer where
  secret : String
  /-- The time against which tokens are checked, in seconds. -/
  now : Int
  service : TodoService
  grants : RoomGrants
  /-- How many of the next questions about grants fail. -/
  permissionFaults : Nat
  hub : Hub
  ids : IdSupply

/-- An outcome, and the server after it. -/
abbrev Served (α : Type) := Except HttpAnswer α × ApiServer

namespace ApiServer

/-- Goes on with an outcome unless it is a refusal. -/
def Served.next {α β : Type} (r : Served α) (f : α → ApiServer → Served β) : Served β :=
  match r with
  | (.ok a, s) => f a s
  | (.error e, s) => (.error e, s)

def authorizedRooms (s : ApiServer) (user : UserId) : Served (List String) :=
  match s.permissionFaults with
  | 0 => (.ok (s.grants.rooms user), s)
  | n + 1 => (.error (.ofError .internal), { s with permissionFaults := n })

def notMember : ApiError := .forbidden "not a member of this workspace"

/-- The user must have been granted the room of the workspace. -/
def requireMember (s : ApiServer) (user : UserId) (workspace : WorkspaceId) : Served Unit :=
  Served.next (s.authorizedRooms user) fun rooms s =>
    (if rooms.contains workspace.toText then .ok () else .error (.ofError notMember), s)

def use {α : Type} (s : ApiServer) (f : TodoService → Except ServiceError α × TodoService) : Served α :=
  let (r, service) := f s.service
  (r.mapError fun e => .ofError (ApiError.ofService e), { s with service := service })

/-- A to-do that the user may see. -/
def loadTodo (s : ApiServer) (user : UserId) (id : TodoId) : Served Todo :=
  Served.next (s.use fun t => t.get id) fun todo s =>
    Served.next (s.requireMember user todo.workspaceId) fun _ s => (.ok todo, s)

def todoJson (status : Nat) (t : Todo) : HttpAnswer := .json status t.toValue

def createTodo (s : ApiServer) (user : UserId) (workspace : WorkspaceId) (title : String) :
    Served HttpAnswer :=
  Served.next (s.requireMember user workspace) fun _ s =>
    Served.next (s.use fun t => t.create workspace title) fun todo s => (.ok (todoJson 201 todo), s)

def listTodos (s : ApiServer) (user : UserId) (workspace : WorkspaceId) : Served HttpAnswer :=
  Served.next (s.requireMember user workspace) fun _ s =>
    Served.next (s.use fun t => t.list workspace) fun todos s =>
      (.ok (.json 200 (.array (todos.map Todo.toValue))), s)

def showRevision (s : ApiServer) (user : UserId) (workspace : WorkspaceId) : Served HttpAnswer :=
  Served.next (s.requireMember user workspace) fun _ s =>
    Served.next (s.use fun t => t.revision workspace) fun n s =>
      (.ok (.json 200 (.object [("workspace_id", .uuid workspace.uuid), ("revision", .int n)])), s)

def getTodo (s : ApiServer) (user : UserId) (id : TodoId) : Served HttpAnswer :=
  Served.next (s.loadTodo user id) fun todo s => (.ok (todoJson 200 todo), s)

/-- Changes a to-do that the user may see. -/
def changeTodo (s : ApiServer) (user : UserId) (id : TodoId)
    (change : TodoService → TodoId → Except ServiceError Todo × TodoService) : Served HttpAnswer :=
  Served.next (s.loadTodo user id) fun todo s =>
    Served.next (s.use fun t => change t todo.id) fun todo s => (.ok (todoJson 200 todo), s)

def deleteTodo (s : ApiServer) (user : UserId) (id : TodoId) : Served HttpAnswer :=
  Served.next (s.loadTodo user id) fun todo s =>
    Served.next (s.use fun t => t.delete todo.id) fun _ s => (.ok (.ofStatus 204), s)

def noRooms : ApiError := .forbidden "no authorized rooms"

def stopping : ApiError := ⟨503, "SHUTTING_DOWN", "server is shutting down"⟩

def hubRefusal : HubError → ApiError
  | .noRooms => noRooms
  | .shuttingDown => stopping
  | .permission _ => .internal

/-- Registers the user's connection before the socket opens. -/
def openSocket (s : ApiServer) (user : UserId) : Served HttpAnswer :=
  Served.next (s.authorizedRooms user) fun rooms s =>
    let (id, ids) := s.ids.fresh
    match s.hub.register id user rooms with
    | (.ok c, hub) => (.ok ⟨101, none, .socket c.id⟩, { s with hub := hub, ids := ids })
    | (.error e, hub) => (.error (.ofError (hubRefusal e)), { s with hub := hub })

/-- The user of a request, or the refusal of it. -/
def userOf (s : ApiServer) (r : HttpRequest) : Except HttpAnswer UserId :=
  (r.user s.secret s.now).mapError .ofError

def idOf (part : String) : Except HttpAnswer Uuid :=
  match HttpRequest.pathId? part with
  | some id => .ok id
  | none => .error (.refusal 400)

/-- Acts on what was taken from the request, unless that was refused. -/
def withInput {α : Type} (s : ApiServer) (input : Except HttpAnswer α)
    (act : α → Served HttpAnswer) : Served HttpAnswer :=
  match input with
  | .ok a => act a
  | .error e => (.error e, s)

def userAndId (s : ApiServer) (r : HttpRequest) (part : String) : Except HttpAnswer (UserId × Uuid) := do
  let user ← s.userOf r
  return (user, ← idOf part)

def userIdTitle (s : ApiServer) (r : HttpRequest) (part : String) :
    Except HttpAnswer (UserId × Uuid × String) := do
  let (user, id) ← s.userAndId r part
  return (user, id, ← r.title)

/-- Serves a request whose method its route allows. -/
def serve (s : ApiServer) (r : HttpRequest) : Route → Served HttpAnswer
  | .health => (.ok (.ofStatus 200), s)
  | .metrics => (.ok ⟨200, none, .exposition⟩, s)
  | .socket =>
    s.withInput (s.userOf r) fun user =>
      match r.socketRefusal? with
      | some a => (.error a, s)
      | none => s.openSocket user
  | .todos w =>
    if r.method = "POST" then
      s.withInput (s.userIdTitle r w) fun (user, id, title) => s.createTodo user ⟨id⟩ title
    else s.withInput (s.userAndId r w) fun (user, id) => s.listTodos user ⟨id⟩
  | .revision w => s.withInput (s.userAndId r w) fun (user, id) => s.showRevision user ⟨id⟩
  | .todo t =>
    if r.method = "PATCH" then
      s.withInput (s.userIdTitle r t) fun (user, id, title) =>
        s.changeTodo user ⟨id⟩ fun service id => service.rename id title
    else if r.method = "DELETE" then
      s.withInput (s.userAndId r t) fun (user, id) => s.deleteTodo user ⟨id⟩
    else s.withInput (s.userAndId r t) fun (user, id) => s.getTodo user ⟨id⟩
  | .complete t =>
    s.withInput (s.userAndId r t) fun (user, id) => s.changeTodo user ⟨id⟩ TodoService.complete
  | .reopen t =>
    s.withInput (s.userAndId r t) fun (user, id) => s.changeTodo user ⟨id⟩ TodoService.reopen

/-- The answer of an outcome; a refusal is an answer as well. -/
def settleAnswer : Served HttpAnswer → HttpAnswer × ApiServer
  | (.ok a, s) => (a, s)
  | (.error a, s) => (a, s)

def handle (s : ApiServer) (r : HttpRequest) : HttpAnswer × ApiServer :=
  match Route.ofPath? r.path with
  | none => (.ofStatus 404, s)
  | some route =>
    if !route.methods.contains r.method then (.notAllowed route.allow, s)
    else
      let (a, s) := settleAnswer (s.serve r route)
      (if r.method = "HEAD" then a.withoutBody else a, s)

end ApiServer

end Workboard
