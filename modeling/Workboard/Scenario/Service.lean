import Workboard.Scenario.Work
import Workboard.Scenario.Caches
import Workboard.Service.Basic

/-!
Scenarios of the to-do service.
-/

namespace Workboard.Scenario

open Json

def readClock (v : Value) : Got SteppingClock := do
  let at_ ← need "clock" (Instant.ofText? "2025-01-01T09:00:00Z")
  match member? v "clock" with
  | none => return ⟨at_, 1000⟩
  | some c => return ⟨← getD c "at" asInstant at_, ← getD c "step_ms" asNat 1000⟩

def readCache (v : Value) : Got (Option TodoCache) := do
  match member? v "cache" with
  | none => return none
  | some c =>
    let seconds (name : String) (standard : Nat) : Got Nat := do
      return (← getD c name asNat standard) * 1000
    return some ⟨.empty (← getD c "prefix" asText "taskhub") (← seconds "tag_ttl" 3600),
      ← seconds "entity_ttl" 300, ← seconds "query_ttl" 60, .todo⟩

def readService (v : Value) : Got TodoService := do
  let mapper ← getD v "mapper" asMapper .standard
  let service : TodoService :=
    ⟨⟨.empty, .empty, .empty, ← wallClock⟩, ← readCache v, ← readClock v, mapper, [], 0⟩
  return (← listOf v "seed" readRow).foldl TodoService.seed service

/-- A service and the to-dos that were created under names. -/
structure ServiceDesk where
  service : TodoService
  named : List (String × TodoId)

def todoIdOf (named : List (String × TodoId)) (v : Value) (name : String) : Got TodoId := do
  let text ← get v name asText
  match text.toList with
  | '$' :: cs =>
    return ((named.find? fun e => e.1 = String.ofList cs).map (·.2)).getD ⟨.nil⟩
  | _ => return ⟨← need name (Uuid.ofText? text)⟩

def serviceMetrics (s : TodoService) : List (String × Value) :=
  match s.cache with
  | none => []
  | some c => cacheMetrics c.aside.hits c.aside.misses

/-- What is looked for in the store behind the cache. -/
def inStore (s : TodoService) (key : String) : Bool :=
  match s.cache with
  | none => false
  | some c => c.aside.store.contains s.wall (c.aside.fullKey key)

def tagSize (s : TodoService) (tag : String) : Nat :=
  match s.cache with
  | none => 0
  | some c => (c.aside.store.members s.wall (c.aside.fullKey tag)).length

def storeSize (s : TodoService) : Nat := (s.cache.map fun c => c.aside.store.size).getD 0

/-- Steps that make something fail, shared with scenarios of the whole server. -/
def disturb (s : TodoService) (v : Value) : Got (Option TodoService) := do
  match ← get v "do" asText with
  | "commit_failure" =>
    let on ← flag v "on"
    return some { s with db := { s.db with outbox := { s.db.outbox with failCommits := on } } }
  | "failing" =>
    let on ← flag v "on"
    return some (s.onStore fun m => { m with failing := on })
  | "fault" =>
    match cacheCall? (← get v "on" asText) with
    | none => return none
    | some call =>
      let times ← getD v "times" asNat 1
      return some (s.onStore fun m => { m with faults := m.faults.arm call times })
  | _ => return none

def runServiceStep (d : ServiceDesk) (v : Value) : Got (ServiceDesk × Value) := do
  let s := d.service
  let id := todoIdOf d.named v "id"
  let workspace : Got WorkspaceId := do return ⟨← get v "workspace" asUuid⟩
  let answer {α : Type} (f : α → Value) (r : Except ServiceError α × TodoService) :
      Got (ServiceDesk × Value) :=
    .ok ({ d with service := r.2 }, result serviceFailure f r.1)
  match ← get v "do" asText with
  | "create" =>
    let (r, s) := s.create (← workspace) (← get v "title" asText)
    let named :=
      match r, member? v "as" with
      | .ok t, some (.string name) => (name, t.id) :: d.named
      | _, _ => d.named
    return (⟨s, named⟩, result serviceFailure todoValue r)
  | "rename" => answer todoValue (s.rename (← id) (← get v "title" asText))
  | "complete" => answer todoValue (s.complete (← id))
  | "reopen" => answer todoValue (s.reopen (← id))
  | "delete" => answer unit (s.delete (← id))
  | "get" => answer todoValue (s.get (← id))
  | "list" => answer (list todoValue) (s.list (← workspace))
  | "revision" => answer Value.int (s.revision (← workspace))
  | "cached_todo" => return (d, .bool (inStore s (CachedTodos.todoKey (← id))))
  | "cached_list" => return (d, .bool (inStore s (CachedTodos.listKey (← workspace))))
  | "cached_tag" => return (d, nat (tagSize s (CachedTodos.workspaceTag (← workspace))))
  | "seed" => return ({ d with service := s.seed (← readRow (← get v "row" some)) }, .null)
  | "outbox" => return (d, list recordValue s.db.outbox.records)
  | _ =>
    match ← disturb s v with
    | some s => return ({ d with service := s }, .null)
    | none => .error "step"

def runService (v : Value) : Got Value := do
  let (shown, d) ← steps (fun d w => do
    let (d, r) ← runServiceStep d w
    let d := if ← settles w then { d with service := d.service.settle } else d
    let s := d.service
    return (d, obj [("r", r), ("rows", nat s.db.repository.size), ("reads", nat s.db.repository.reads),
      ("outbox", nat s.db.outbox.records.length), ("cached", nat (storeSize s))]))
    (⟨← readService v, []⟩ : ServiceDesk) (← listOf v "steps" .ok)
  return obj [("metrics", obj (serviceMetrics d.service)), ("steps", .array shown)]

end Workboard.Scenario
