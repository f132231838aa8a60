import Workboard.Json.Fields

/-!
The events of a to-do and their JSON form, which is tagged by the kind of change.
-/

namespace Workboard

inductive TodoChange where
  | created (title : String)
  | renamed (title : String)
  | completed
  | reopened
  | deleted
  deriving DecidableEq

structure TodoEvent where
  todoId : TodoId
  workspaceId : WorkspaceId
  change : TodoChange
  timestamp : Instant
  deriving DecidableEq

namespace TodoChange

def tag : TodoChange → String
  | .created _ => "created"
  | .renamed _ => "renamed"
  | .completed => "completed"
  | .reopened => "reopened"
  | .deleted => "deleted"

def title? : TodoChange → Option String
  | .created title => some title
  | .renamed title => some title
  | _ => none

end TodoChange

namespace TodoEvent

/-- The name under which an event is published. -/
def name (e : TodoEvent) : String := "todo." ++ e.change.tag

/-- All names of events, in the order of a to-do's life. -/
def names : List String :=
  ["todo.created", "todo.renamed", "todo.completed", "todo.reopened", "todo.deleted"]

open Json

def toValue (e : TodoEvent) : Value :=
  let title := match e.change.title? with
    | some title => [("title", Value.string title)]
    | none => []
  .object ([("type", .string e.change.tag), ("todo_id", .uuid e.todoId.uuid),
    ("workspace_id", .uuid e.workspaceId.uuid)] ++ title ++ [("timestamp", .instant e.timestamp)])

def toBytes (e : TodoEvent) : Bytes := e.toValue.print

/-- The names of the fields that belong to a tag. -/
def fieldNames (tag : String) : List String :=
  if tag = "created" ∨ tag = "renamed" then ["todo_id", "workspace_id", "title", "timestamp"]
  else ["todo_id", "workspace_id", "timestamp"]

/-- The event with a given tag whose fields stand in the rest of the tree. -/
def ofFields? (tag : String) (rest : Node) : Option TodoEvent := do
  let f ← Fields.ofNode? (fieldNames tag) rest
  let todo ← f.required? 0 "todo_id" Node.uuid?
  let workspace ← f.required? 1 "workspace_id" Node.uuid?
  let titled (make : String → TodoChange) : Option TodoEvent := do
    let title ← f.required? 2 "title" Node.text?
    let at' ← f.required? 3 "timestamp" Node.instant?
    some ⟨⟨todo⟩, ⟨workspace⟩, make title, at'⟩
  let plain (change : TodoChange) : Option TodoEvent := do
    let at' ← f.required? 2 "timestamp" Node.instant?
    some ⟨⟨todo⟩, ⟨workspace⟩, change, at'⟩
  match tag with
  | "created" => titled .created
  | "renamed" => titled .renamed
  | "completed" => plain .completed
  | "reopened" => plain .reopened
  | "deleted" => plain .deleted
  | _ => none

/-- Whether the name of a member is the name of the tag. -/
def isTag (m : Bytes × Node) : Bool := textOfBody? m.1 == some "type"

/-- The tag may stand anywhere in an object but must not repeat; in an array it comes first. The whole
text has to be a free-form value as well. -/
def ofNode? (v : Node) : Option TodoEvent := do
  let _ ← Value.ofNode? Value.maxDepth v
  match v with
  | .object ms =>
    match ms.filter isTag with
    | [(_, tag)] => ofFields? (← tag.text?) (.object (ms.filter fun m => !isTag m))
    | _ => none
  | .array (tag :: rest) => ofFields? (← tag.text?) (.array rest)
  | _ => none

def ofBytes? (bs : Bytes) : Option TodoEvent := (Node.ofBytes? bs).bind ofNode?

/-- The event that the text of an event names. -/
def asWritten (e : TodoEvent) : TodoEvent := { e with timestamp := e.timestamp.asWritten }

end TodoEvent

end Workboard
