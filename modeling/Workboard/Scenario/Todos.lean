import Workboard.Cache.Codec
import Workboard.Scenario.Report
import Workboard.Uuid

/-!
Scenarios about single to-dos, their identifiers and their events.
-/

namespace Workboard.Scenario

open Json

def todoState (t : TrackedTodo) (r : Option Value) : Value :=
  obj ([("todo", todoValue t.todo), ("pending", list (fun e => str e.name) t.pending),
    ("aggregate_id", uuid t.todo.id.uuid)] ++ (r.map fun v => ("r", v)).toList)

def todoStep (t : TrackedTodo) (v : Value) : Got (TrackedTodo × Value) := do
  match ← get v "do" asText with
  | "rename" =>
    match t.rename (← get v "title" asText) (← get v "now" asInstant) with
    | .ok t => return (t, ok .null)
    | .error e => return (t, domainFailure e)
  | "complete" => return (t.complete (← get v "now" asInstant), .null)
  | "reopen" => return (t.reopen (← get v "now" asInstant), .null)
  | "mark_deleted" => return (t.markDeleted (← get v "now" asInstant), .null)
  | "take" =>
    let (events, t) := t.takeEvents
    return (t, list eventView events)
  | "json" =>
    let codec := Codec.json .tracked
    match codec.encode t with
    | .error e => .error e.message
    | .ok text =>
      match codec.decode text with
      | .error e => .error e.message
      | .ok t => return (t, bytes text)
  | s => .error ("step " ++ s)

def runTodo (v : Value) : Got Value := do
  let start ← match member? v "create" with
    | some c => do
      let workspace ← get c "workspace" asUuid
      pure (TrackedTodo.create ⟨IdSupply.empty.fresh.1⟩ ⟨workspace⟩ (← get c "title" asText)
        (← get c "now" asInstant))
    | none => do pure (.ok (.restore (← readRow (← get v "restore" some))))
  match start with
  | .error e => return domainFailure e
  | .ok t =>
    let (shown, _) ← steps (fun t w => do
      let (t, r) ← todoStep t w
      return (t, todoState t (some r))) t (← listOf v "steps" .ok)
    return obj [("aggregate_type", str TrackedTodo.kind), ("steps", .array (todoState t none :: shown))]

def runEventJson (v : Value) : Got Value := do
  match TodoEvent.ofBytes? (← get v "text" asBytes) with
  | some e => return obj [("ok", eventView e), ("json", bytes e.toBytes)]
  | none => return jsonError

def runTodoJson (v : Value) : Got Value := do
  match (Codec.json .tracked).decode (← get v "text" asBytes) with
  | .ok t => return obj [("ok", bytes t.todo.toBytes), ("pending", nat t.pending.length)]
  | .error _ => return jsonError

def ordering : Ordering → Value
  | .lt => str "Less"
  | .eq => str "Equal"
  | .gt => str "Greater"

def runId (v : Value) : Got Value := do
  let other ← opt v "other" asUuid
  match (Node.ofBytes? (← get v "text" asBytes)).bind Node.uuid? with
  | some u =>
    return obj [("display", str u.toText), ("json", bytes (Value.uuid u).print),
      ("cmp", option (fun o => ordering (u.compare o)) other)]
  | none => return jsonError

/-- Whether two journals of written values are the same. -/
def sameJournal (a b : Journal Value) : Bool :=
  a.pending.map Value.print == b.pending.map Value.print

def runRecorder (v : Value) : Got Value := do
  let (shown, _) ← steps (fun (j : Journal Value) w => do
    let (j, r) ← match ← get w "do" asText with
      | "record" => do pure (j.record (← get w "value" some), Value.null)
      | "take" => pure (j.take.2, Value.array j.take.1)
      | "clone_eq" =>
        pure (j, Value.array [.bool (sameJournal (j.record (.int 0)) j), .bool (sameJournal j j)])
      | s => .error ("step " ++ s)
    return (j, obj [("r", r), ("pending", .array j.pending), ("empty", .bool j.isEmpty)]))
    (Journal.empty : Journal Value) (← listOf v "steps" .ok)
  return .array shown

def runMapEvent (v : Value) : Got Value := do
  let e ← need "event" (TodoEvent.ofNode? (← get v "event" some).toNode)
  match EventMapper.standard e with
  | .ok (some m) =>
    return obj [("event_type", str m.eventType), ("payload", bytes m.payload),
      ("headers", headersValue m.headers)]
  | _ => return .null

end Workboard.Scenario
