import Workboard.Scenario.Report
import Workboard.Work.Script

/-!
Scenarios of units of work, each a script of steps.
-/

namespace Workboard.Scenario

open Json

def asMapper (v : Value) : Option EventMapper := do
  let s := (← asText v).toList
  if s = "todo".toList then some .standard
  else if "reject:".toList.isPrefixOf s then some (.rejecting (String.ofList (s.drop 7)))
  else if "skip:".toList.isPrefixOf s then some (.skipping (String.ofList (s.drop 5)))
  else none

/-- Levels of nesting that a script may have. -/
def maxNesting : Nat := 256

def readScriptStep : Nat → Value → Got ScriptStep
  | 0, _ => .error "nested too deeply"
  | depth + 1, v => do
  let todo := get v "todo" asText
  match ← get v "do" asText with
  | "create" =>
    return .create (← todo) ⟨← get v "workspace" asUuid⟩ (← get v "title" asText) (← get v "now" asInstant)
  | "restore" => return .restore (← todo) (← readRow (← get v "row" some))
  | "rename" => return .act (← todo) (.rename (← get v "title" asText)) (← get v "now" asInstant)
  | "complete" => return .act (← todo) .complete (← get v "now" asInstant)
  | "reopen" => return .act (← todo) .reopen (← get v "now" asInstant)
  | "mark_deleted" => return .act (← todo) .markDeleted (← get v "now" asInstant)
  | "collect" => return .collect (← todo) (← getD v "mapper" asMapper .standard)
  | "save" => return .save (← todo)
  | "delete" => return .delete (← todo)
  | "find" => return .find (← todo) ((← opt v "id" asUuid).map fun u => ⟨u⟩)
  | "hook" =>
    let ending ← match ← opt v "how" asText with
      | none => pure HookEnd.ok
      | some "err" => pure .error
      | some "panic" => pure .panic
      | some _ => pure .ok
    return .hook ⟨← get v "label" asText, ending⟩
  | "stage" => return .stage (← get v "label" asText)
  | "append" => return .append (← listOf v "records" readRecord)
  | "nested" => return .nested (← listOf v "steps" (readScriptStep depth)) (← flag v "catch")
  | "cancel" => return .cancel
  | "sleep" => return .sleep (← get v "ms" asNat)
  | "fail" => return .fail (← get v "message" asText)
  | "panic" => return .panic (← get v "message" asText)
  | "return" => return .give ((v.member? "value").getD .null)
  | s => .error ("step " ++ s)

def outboxCall? (name : String) : Option OutboxCall := OutboxCall.all.find? fun c => c.name = name

def readScriptRun (v : Value) : Got ScriptRun := do
  let faults ← (← membersOf v "faults").mapM fun (n, w) => do
    return (← need n (outboxCall? n), ← need n (asNat w))
  let plain ← flag v "no_token"
  let token : CancelToken := ⟨← flag v "cancelled", ← opt v "cancel_after" asNat⟩
  return ⟨← listOf v "steps" (readScriptStep maxNesting), ← flag v "commit_failure", faults,
    if plain then .never else token, !plain⟩

def scriptFailure (e : ScriptError) : Value :=
  match e with
  | .business m => failure "Business" m
  | .domain d => failure ("Domain." ++ domainKind d) e.message
  | .repository r => failure ("Repository." ++ repositoryKind r) e.message
  | .unitOfWork u => failure ("UnitOfWork." ++ unitOfWorkKind u) e.message

def endingValue {ε α : Type} (onError : ε → Value) (onOk : α → Value) : Ending ε α → Value
  | .returned a => ok (onOk a)
  | .failed e => onError e
  | .panicked m => failure "Panic" m

def stepAnswer : StepAnswer → Value
  | .none => .null
  | .found row => option todoValue row
  | .nested r => result scriptFailure id r

def entryValue (e : StepEntry) : Value :=
  obj [("r", stepAnswer e.answer), ("collected", nat e.collected), ("pending", option nat e.pending),
    ("appended", nat e.appended)]

def reportValue (r : RunReport) : Value :=
  obj [("result", endingValue scriptFailure id r.ending), ("steps", list entryValue r.log),
    ("hooks", list str r.hooks), ("staged", list str r.staged),
    ("new_records", list recordValue r.newRecords), ("same_created_at", .bool r.sameCreatedAt),
    ("rows", nat r.rows), ("records", nat r.records)]

def listAll : List Uuid → Repository → List (List Todo) × Repository
  | [], r => ([], r)
  | w :: ws, r =>
    let (todos, r) := r.queryList ⟨w⟩
    let (rest, r) := listAll ws r
    (todos :: rest, r)

def runUnitOfWork (v : Value) : Got Value := do
  let now ← wallClock
  let faulty ← flag v "fault_store"
  let mapper ← getD v "mapper" asMapper .standard
  let runs ← listOf v "runs" readScriptRun
  let db : Database := ⟨.empty, .empty, .empty, now⟩
  let (shown, db) := ScriptRun.reportAll ⟨mapper, !faulty⟩ runs db .empty
  let runsShown := ("runs", list reportValue shown)
  if faulty then return obj [runsShown]
  else
    let workspaces ← listOf v "list" fun w => need "list" (asUuid w)
    let (lists, repository) := listAll workspaces db.repository
    return obj [runsShown, ("lists", list (fun l => ok (list todoValue l)) lists),
      ("empty", .bool (repository.size == 0)), ("reads", nat repository.reads)]

end Workboard.Scenario
