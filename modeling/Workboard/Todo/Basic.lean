import Workboard.Todo.Event

/-!
A to-do and its changes, and what can be wrong with a request for one. Each change that has an effect is recorded
in a journal as an event, to be taken by whoever stores the to-do.
-/

namespace Workboard

inductive DomainError where
  | validation (field message : String)
  | businessRule (rule : String)
  deriving DecidableEq

def DomainError.message : DomainError → String
  | .validation field message => "验证失败: " ++ field ++ ": " ++ message
  | .businessRule rule => "业务规则违反: " ++ rule

inductive RepositoryError where
  | notFound
  | conflict (message : String)
  | storage (message : String)
  deriving DecidableEq

def RepositoryError.message : RepositoryError → String
  | .notFound => "记录不存在"
  | .conflict message => "数据冲突: " ++ message
  | .storage message => "存储错误: " ++ message

structure Journal (α : Type) where
  events : List α
  deriving DecidableEq

namespace Journal

variable {α : Type}

def empty : Journal α := ⟨[]⟩

def record (j : Journal α) (e : α) : Journal α := ⟨j.events ++ [e]⟩

def pending (j : Journal α) : List α := j.events

/-- The pending events and the emptied journal. -/
def take (j : Journal α) : List α × Journal α := (j.events, empty)

def isEmpty (j : Journal α) : Bool := j.events.isEmpty

@[simp] theorem pending_record (j : Journal α) (e : α) : (j.record e).pending = j.pending ++ [e] :=
  rfl

@[simp] theorem pending_take (j : Journal α) : j.take.2.pending = [] := rfl

end Journal

structure Todo where
  id : TodoId
  workspaceId : WorkspaceId
  title : String
  completed : Bool
  createdAt : Instant
  updatedAt : Instant
  completedAt : Option Instant
  deriving DecidableEq

def maxTitleLength : Nat := 200

/-- A title is stored without the blanks around it, and has 1 to 200 characters then. -/
def validateTitle (title : String) : Except DomainError String :=
  let trimmed := trimChars title.toList
  if trimmed.isEmpty then .error (.validation "title" "标题不能为空")
  else if trimmed.length > maxTitleLength then
    .error (.validation "title" ("标题长度不能超过 " ++ toString maxTitleLength ++ " 个字符"))
  else .ok (String.ofList trimmed)

/-- A to-do together with the events that no one has stored yet. -/
structure TrackedTodo where
  todo : Todo
  journal : Journal TodoEvent
  deriving DecidableEq

namespace TrackedTodo

/-- The kind of aggregate that to-dos are stored as. -/
def kind : String := "todo"

/-- A to-do read from storage has nothing to record. -/
def restore (todo : Todo) : TrackedTodo := ⟨todo, .empty⟩

def pending (t : TrackedTodo) : List TodoEvent := t.journal.pending

def record (t : TrackedTodo) (todo : Todo) (change : TodoChange) (now : Instant) : TrackedTodo :=
  ⟨todo, t.journal.record ⟨t.todo.id, t.todo.workspaceId, change, now⟩⟩

def create (id : TodoId) (workspace : WorkspaceId) (title : String) (now : Instant) :
    Except DomainError TrackedTodo := do
  let title ← validateTitle title
  let todo : Todo := ⟨id, workspace, title, false, now, now, none⟩
  .ok ((restore todo).record todo (.created title) now)

/-- A title that is already the to-do's title changes nothing. -/
def rename (t : TrackedTodo) (title : String) (now : Instant) : Except DomainError TrackedTodo := do
  let title ← validateTitle title
  if title = t.todo.title then .ok t
  else .ok (t.record { t.todo with title := title, updatedAt := now } (.renamed title) now)

def complete (t : TrackedTodo) (now : Instant) : TrackedTodo :=
  if t.todo.completed then t
  else
    t.record { t.todo with completed := true, completedAt := some now, updatedAt := now } .completed
      now

def reopen (t : TrackedTodo) (now : Instant) : TrackedTodo :=
  if t.todo.completed then
    t.record { t.todo with completed := false, completedAt := none, updatedAt := now } .reopened now
  else t

/-- Records the deletion; removing the row is up to the repository. -/
def markDeleted (t : TrackedTodo) (now : Instant) : TrackedTodo :=
  t.record { t.todo with updatedAt := now } .deleted now

def takeEvents (t : TrackedTodo) : List TodoEvent × TrackedTodo :=
  (t.journal.take.1, { t with journal := t.journal.take.2 })

end TrackedTodo

namespace Todo

open Json

def toValue (t : Todo) : Value :=
  .object [("id", .uuid t.id.uuid), ("workspace_id", .uuid t.workspaceId.uuid),
    ("title", .string t.title), ("completed", .bool t.completed),
    ("created_at", .instant t.createdAt), ("updated_at", .instant t.updatedAt),
    ("completed_at", .optional .instant t.completedAt)]

def toBytes (t : Todo) : Bytes := t.toValue.print

def fieldNames : List String :=
  ["id", "workspace_id", "title", "completed", "created_at", "updated_at", "completed_at"]

def ofNode? (v : Node) : Option Todo := do
  let f ← Fields.ofNode? fieldNames v
  let id ← f.required? 0 "id" Node.uuid?
  let workspace ← f.required? 1 "workspace_id" Node.uuid?
  let title ← f.required? 2 "title" Node.text?
  let completed ← f.required? 3 "completed" Node.bool?
  let created ← f.required? 4 "created_at" Node.instant?
  let updated ← f.required? 5 "updated_at" Node.instant?
  let completedAt ← f.optional? 6 "completed_at" Node.instant?
  some ⟨⟨id⟩, ⟨workspace⟩, title, completed, created, updated, completedAt⟩

def ofBytes? (bs : Bytes) : Option Todo := (Node.ofBytes? bs).bind ofNode?

/-- The to-do that the text of a to-do names. -/
def asWritten (t : Todo) : Todo :=
  { t with
    createdAt := t.createdAt.asWritten
    updatedAt := t.updatedAt.asWritten
    completedAt := t.completedAt.map Instant.asWritten }

/-- Whether all times of a to-do have texts of their own. -/
structure Expressible (t : Todo) : Prop where
  created : t.createdAt.Expressible
  updated : t.updatedAt.Expressible
  completed : ∀ time ∈ t.completedAt, time.Expressible

/-- The order of lists: by creation, then by identifier. -/
def compare (a b : Todo) : Ordering :=
  (a.createdAt.compare b.createdAt).then (a.id.uuid.compare b.id.uuid)

end Todo

end Workboard

/-!
Rebuilding a to-do from its events. Replaying is strict: an event that could not have been recorded for a
to-do as it stands does not apply to it.
-/

namespace Workboard.TodoEvent

/-- What an event makes of a row, or of its absence. -/
def replay? (e : TodoEvent) : Option Todo → Option (Option Todo)
  | none =>
    match e.change with
    | .created title =>
      some (some ⟨e.todoId, e.workspaceId, title, false, e.timestamp, e.timestamp, none⟩)
    | _ => none
  | some t =>
    if t.id = e.todoId ∧ t.workspaceId = e.workspaceId then
      match e.change with
      | .created _ => none
      | .renamed title =>
        if title = t.title then none else some (some { t with title := title, updatedAt := e.timestamp })
      | .completed =>
        if t.completed then none
        else
          some (some
            { t with completed := true, completedAt := some e.timestamp, updatedAt := e.timestamp })
      | .reopened =>
        if t.completed then
          some (some { t with completed := false, completedAt := none, updatedAt := e.timestamp })
        else none
      | .deleted => some none
    else none

/-- What events make of a row, one after another. -/
def replayAll? (events : List TodoEvent) (row : Option Todo) : Option (Option Todo) :=
  events.foldlM (fun row e => e.replay? row) row

end Workboard.TodoEvent
