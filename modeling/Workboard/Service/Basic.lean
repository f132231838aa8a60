import Workboard.Service.CachedTodos
import Workboard.Work.Execute

/-!
The use cases of to-dos. Each change is one transaction; when it has committed, the cached answers that it
outdates are dropped. Reads go through the cache if there is one.
-/

namespace Workboard

/-- A clock that shows each time once and then moves on by a fixed step. -/
structure SteppingClock where
  now : Instant
  stepMs : Nat

def SteppingClock.tick (c : SteppingClock) : SteppingClock :=
  { c with now := c.now.addMillis c.stepMs }

/-- A to-do that was changed, as far as the cache is concerned. -/
structure ChangedTodo where
  id : TodoId
  workspaceId : WorkspaceId
  deriving DecidableEq

/-- The cache of the service with the times that its entries live, in milliseconds, and the binary form
in which it keeps single to-dos. -/
structure TodoCache where
  aside : CacheAside CachedTodos
  entityTtl : Nat
  queryTtl : Nat
  form : BinaryForm Todo

structure TodoService where
  db : Database
  cache : Option TodoCache
  clock : SteppingClock
  mapper : EventMapper
  /-- Fills that reads left and that are still to be done. -/
  fills : List (Fill CachedTodos)
  /-- The time on the clock of the cache's entries. -/
  wall : Nat

namespace TodoService

/-- The pieces of work of the service. -/
abbrev Task (α : Type) := Work SteppingClock ChangedTodo ServiceError α

namespace Task

def readClock : Task Instant := .look fun c => .note c.tick (.give c.now)

def missing (id : TodoId) : ServiceError := .notFound ("todo " ++ id.toText)

def load (id : TodoId) : Task TrackedTodo :=
  .find id fun
    | some t => .give (.restore t)
    | none => .fail (missing id)

def changed (t : TrackedTodo) : Task Todo :=
  .afterCommit ⟨t.todo.id, t.todo.workspaceId⟩ (.give t.todo)

def create (mapper : EventMapper) (workspace : WorkspaceId) (title : String) : Task Todo := do
  let now ← readClock
  let id ← Work.freshId .give
  let t ← Work.ofExcept ((TrackedTodo.create ⟨id⟩ workspace title now).mapError .domain)
  changed (← Work.save mapper t)

def mutate (mapper : EventMapper) (id : TodoId)
    (change : TrackedTodo → Instant → Except DomainError TrackedTodo) : Task Todo := do
  let t ← load id
  let now ← readClock
  let t ← Work.ofExcept ((change t now).mapError .domain)
  changed (← Work.save mapper t)

def rename (mapper : EventMapper) (id : TodoId) (title : String) : Task Todo :=
  mutate mapper id fun t now => t.rename title now

def complete (mapper : EventMapper) (id : TodoId) : Task Todo :=
  mutate mapper id fun t now => .ok (t.complete now)

def reopen (mapper : EventMapper) (id : TodoId) : Task Todo :=
  mutate mapper id fun t now => .ok (t.reopen now)

def delete (mapper : EventMapper) (id : TodoId) : Task Todo := do
  let t ← load id
  let now ← readClock
  changed (← Work.delete mapper (t.markDeleted now))

end Task

/-- Drops what a change outdates. An error in one of the two steps does not keep back the other. -/
def invalidate (wall : Nat) (c : CacheAside CachedTodos) (changed : ChangedTodo) :
    CacheAside CachedTodos :=
  let entity : Invalidation :=
    .entity (CachedTodos.todoKey changed.id) changed.workspaceId.toText
  let list : Invalidation := .tag (CachedTodos.workspaceTag changed.workspaceId)
  (list.run wall (entity.run wall c).2).2

/-- Carries out a piece of work, and drops what it outdates from the cache. -/
def execute {α : Type} (s : TodoService) (task : Task α) : Except ServiceError α × TodoService :=
  let done := task.execute .unitOfWork s.db .never false 0 s.clock
  let cache := s.cache.map fun c => { c with aside := done.hooks.foldl (invalidate s.wall) c.aside }
  let s := { s with db := done.db, clock := done.notes, cache := cache }
  match done.ending with
  | .returned a => (.ok a, s)
  | .failed e => (.error e, s)
  | .panicked m => (.error (.infrastructure m), s)

def create (s : TodoService) (workspace : WorkspaceId) (title : String) :
    Except ServiceError Todo × TodoService :=
  s.execute (Task.create s.mapper workspace title)

def rename (s : TodoService) (id : TodoId) (title : String) : Except ServiceError Todo × TodoService :=
  s.execute (Task.rename s.mapper id title)

def complete (s : TodoService) (id : TodoId) : Except ServiceError Todo × TodoService :=
  s.execute (Task.complete s.mapper id)

def reopen (s : TodoService) (id : TodoId) : Except ServiceError Todo × TodoService :=
  s.execute (Task.reopen s.mapper id)

def delete (s : TodoService) (id : TodoId) : Except ServiceError Unit × TodoService :=
  let (r, s) := s.execute (Task.delete s.mapper id)
  (r.map fun _ => (), s)

def fetchOne (id : TodoId) (r : Repository) : Except ServiceError Todo × Repository :=
  match r.queryGet id with
  | (some t, r) => (.ok t, r)
  | (none, r) => (.error (Task.missing id), r)

def fetchMany (workspace : WorkspaceId) (r : Repository) :
    Except ServiceError (List Todo) × Repository :=
  let (ts, r) := r.queryList workspace
  (.ok ts, r)

/-- A fetch whose answer is of the kind that the cache holds. -/
def wrapped {α : Type} (wrap : α → CachedTodos)
    (fetch : Repository → Except ServiceError α × Repository) (r : Repository) :
    Except ServiceError CachedTodos × Repository :=
  let (a, r) := fetch r
  (a.map wrap, r)

/-- Reads through the cache if there is one. -/
def read {α : Type} (s : TodoService) (reading : TodoCache → Reading CachedTodos)
    (wrap : α → CachedTodos) (unwrap? : CachedTodos → Option α)
    (fetch : Repository → Except ServiceError α × Repository) :
    Except ServiceError α × TodoService :=
  match s.cache with
  | none =>
    let (a, repository) := fetch s.db.repository
    (a, { s with db := { s.db with repository := repository } })
  | some c =>
    let (answer, fill, aside, repository) :=
      (reading c).run s.wall (wrapped wrap fetch) c.aside s.db.repository
    let s :=
      { s with
        cache := some { c with aside := aside }
        db := { s.db with repository := repository }
        fills := s.fills ++ fill.toList }
    match answer with
    | some (.ok v) =>
      match unwrap? v with
      | some a => (.ok a, s)
      | none => (.error (.infrastructure "no value"), s)
    | some (.error e) => (.error e, s)
    | none => (.error (.infrastructure "no value"), s)

def get (s : TodoService) (id : TodoId) : Except ServiceError Todo × TodoService :=
  s.read (fun c => CachedTodos.readOne c.form id c.entityTtl) .one CachedTodos.one? (fetchOne id)

def list (s : TodoService) (workspace : WorkspaceId) :
    Except ServiceError (List Todo) × TodoService :=
  s.read (fun c => CachedTodos.readMany workspace c.queryTtl) .many CachedTodos.many?
    (fetchMany workspace)

/-- Without a cache nobody counts revisions. -/
def revision (s : TodoService) (workspace : WorkspaceId) : Except ServiceError Int × TodoService :=
  match s.cache with
  | none => (.ok 0, s)
  | some c =>
    let (r, aside) := c.aside.revision workspace.toText
    (r.mapError .cache, { s with cache := some { c with aside := aside } })

def settle (s : TodoService) : TodoService :=
  { s with
    cache := s.cache.map fun c => { c with aside := s.fills.foldl (fun a f => f.run s.wall a) c.aside }
    fills := [] }

def seed (s : TodoService) (t : Todo) : TodoService :=
  { s with db := { s.db with repository := s.db.repository.insert t } }

/-- Changes the store behind the cache, if there is one. -/
def onStore (s : TodoService) (f : MemoryStore → MemoryStore) : TodoService :=
  { s with
    cache := s.cache.map fun c => { c with aside := { c.aside with store := f c.aside.store } } }

end TodoService

end Workboard
