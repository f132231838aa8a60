import Workboard.Cache.Aside
import Workboard.Service.Error

/-!
How to-dos and their lists are cached: one key for each to-do, one for the list of each workspace, and a
tag for each workspace under which all of them stand.
-/

namespace Workboard

/-- What the cache of the service holds. -/
inductive CachedTodos where
  | one (todo : Todo)
  | many (todos : List Todo)

namespace CachedTodos

def todoKey (id : TodoId) : String := CacheKey.entity "todo" id.toText

def listKey (workspace : WorkspaceId) : String :=
  CacheKey.query "todos_by_workspace" [workspace.toText]

def workspaceTag (workspace : WorkspaceId) : String := CacheKey.tag "workspace" workspace.toText

def one? : CachedTodos → Option Todo
  | .one t => some t
  | .many _ => none

def many? : CachedTodos → Option (List Todo)
  | .one _ => none
  | .many ts => some ts

/-- What the cached text of an answer names. -/
def asWritten : CachedTodos → CachedTodos
  | .one t => .one t.asWritten
  | .many ts => .many (ts.map Todo.asWritten)

/-- A codec for one kind of what is cached. -/
def codecFor {α : Type} (codec : Codec α) (wrap : α → CachedTodos) (unwrap? : CachedTodos → Option α) :
    Codec CachedTodos where
  encode v :=
    match unwrap? v with
    | some a => codec.encode a
    | none => .error (.encode "not of the kind")
  decode bs := (codec.decode bs).map wrap

/-- One to-do is cached in a binary form. -/
def oneCodec (form : BinaryForm Todo) : Codec CachedTodos :=
  codecFor (.framed form Codec.standardLimit) .one one?

/-- A list is cached as a JSON text. -/
def manyCodec : Codec CachedTodos := codecFor (.json (.list .todo)) .many many?

/-- The read of one to-do. It is tagged with the workspace that the to-do turns out to be in. -/
def readOne (form : BinaryForm Todo) (id : TodoId) (ttl : Nat) : Reading CachedTodos where
  key := todoKey id
  ttl := ttl
  codec := oneCodec form
  tagsFor v := ((one? v).map fun t => workspaceTag t.workspaceId).toList
  accepts v := (one? v).isSome

def readMany (workspace : WorkspaceId) (ttl : Nat) : Reading CachedTodos where
  key := listKey workspace
  ttl := ttl
  codec := manyCodec
  tagsFor _ := [workspaceTag workspace]
  accepts v := (many? v).isSome

end CachedTodos

end Workboard
