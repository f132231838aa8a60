import Workboard.Json.Value
import Workboard.Work.Execute

/-!
Business given as a list of steps on named to-dos. The to-dos outlive the unit of work, and every step
that finishes leaves an entry in a log.
-/

namespace Workboard

/-- A hook that leaves its label in a log. -/
structure ScriptHook where
  label : String
  ending : HookEnd

def ScriptHook.perform (h : ScriptHook) (labels : List String) : HookEnd × List String :=
  (h.ending, labels ++ [h.label])

/-- A change that a to-do makes to itself. -/
inductive TodoAction where
  | rename (title : String)
  | complete
  | reopen
  | markDeleted

def TrackedTodo.act (t : TrackedTodo) (now : Instant) :
    TodoAction → Except DomainError TrackedTodo
  | .rename title => t.rename title now
  | .complete => .ok (t.complete now)
  | .reopen => .ok (t.reopen now)
  | .markDeleted => .ok (t.markDeleted now)

inductive ScriptStep where
  | create (todo : String) (workspace : WorkspaceId) (title : String) (now : Instant)
  | restore (todo : String) (row : Todo)
  | act (todo : String) (action : TodoAction) (now : Instant)
  | collect (todo : String) (mapper : EventMapper)
  | save (todo : String)
  | delete (todo : String)
  | find (todo : String) (id : Option TodoId)
  | hook (hook : ScriptHook)
  | stage (label : String)
  | append (records : List NewRecord)
  | nested (steps : List ScriptStep) (catches : Bool)
  | cancel
  | sleep (ms : Nat)
  | fail (message : String)
  | panic (message : String)
  | give (value : Json.Value)

inductive ScriptError where
  | business (message : String)
  | domain (e : DomainError)
  | repository (e : RepositoryError)
  | unitOfWork (e : UnitOfWorkError)

def ScriptError.message : ScriptError → String
  | .business message => message
  | .domain e => e.message
  | .repository e => e.message
  | .unitOfWork e => e.message

inductive StepAnswer where
  | none
  | found (row : Option Todo)
  | nested (result : Except ScriptError Json.Value)

/-- A step that finished: its answer, the events collected so far, the pending events of the to-do that
it names, and the rows in the transaction. -/
structure StepEntry where
  answer : StepAnswer
  collected : Nat
  pending : Option Nat
  appended : Nat

/-- What a script keeps outside of its transaction. -/
structure Desk where
  todos : List (String × TrackedTodo)
  log : List StepEntry

namespace Desk

def empty : Desk := ⟨[], []⟩

def get? (d : Desk) (name : String) : Option TrackedTodo :=
  (d.todos.find? fun e => e.1 = name).map (·.2)

def put (d : Desk) (name : String) (t : TrackedTodo) : Desk :=
  { d with todos := (name, t) :: d.todos.filter fun e => e.1 ≠ name }

end Desk

namespace ScriptStep

abbrev Acting := Work Desk ScriptHook ScriptError

def keep (name : String) (t : TrackedTodo) : Acting Unit :=
  .look fun d => .note (d.put name t) (.give ())

/-- The to-do of a name, without which the script cannot go on. -/
def held (name : String) : Acting TrackedTodo :=
  .look fun d =>
    match d.get? name with
    | some t => .give t
    | none => .panic ("no todo " ++ name)

/-- Writes a log entry for a step that finished. -/
def finish (named : Option String) (answer : StepAnswer) : Acting Unit :=
  .counts fun collected appended => .look fun d =>
    let pending := (named.bind d.get?).map fun t => t.pending.length
    .note { d with log := d.log ++ [⟨answer, collected, pending, appended⟩] } (.give ())

def lifted {α : Type} : Except DomainError α → Acting α
  | .ok a => .give a
  | .error e => .fail (.domain e)

/-- A script may run without a repository, and its calls are refused then. -/
structure Setting where
  mapper : EventMapper
  hasRepository : Bool

/-- A step that ends its level ends it with a value. -/
inductive Flow where
  | next
  | leave (value : Json.Value)

mutual

def work (s : Setting) : ScriptStep → Acting Flow
  | .create name workspace title now => do
    let id ← (.freshId .give : Acting Uuid)
    keep name (← lifted (TrackedTodo.create ⟨id⟩ workspace title now))
    finish (some name) .none
    return .next
  | .restore name row => do
    keep name (.restore row)
    finish (some name) .none
    return .next
  | .act name action now => do
    keep name (← lifted ((← held name).act now action))
    finish (some name) .none
    return .next
  | .collect name mapper => do
    keep name (← (.collect mapper (← held name) .give : Acting TrackedTodo))
    finish (some name) .none
    return .next
  | .save name => do
    let t ← held name
    if s.hasRepository then
      keep name (← Work.save s.mapper t)
      finish (some name) .none
      return .next
    else (.fail (.repository (.conflict "no repository")) : Acting Flow)
  | .delete name => do
    let t ← held name
    if s.hasRepository then
      keep name (← Work.delete s.mapper t)
      finish (some name) .none
      return .next
    else (.fail (.repository .notFound) : Acting Flow)
  | .find name id => do
    let id ← match id with
      | some id => pure id
      | none => do pure (← held name).todo.id
    if s.hasRepository then
      let row ← (.find id .give : Acting (Option Todo))
      match row with
      | some row => keep name (.restore row)
      | none => pure ()
      finish (some name) (.found row)
      return .next
    else (.fail (.repository (.storage "no repository")) : Acting Flow)
  | .hook h => .afterCommit h do
    finish none .none
    return .next
  | .stage label => .stage (.label label) do
    finish none .none
    return .next
  | .append records => do
    match ← (.append records .give : Acting (Except OutboxError Unit)) with
    | .ok () =>
      finish none .none
      return .next
    | .error e => (.fail (.unitOfWork (.outbox e)) : Acting Flow)
  | .nested steps catches => do
    let result ←
      if catches then (level s steps).attempt
      else do pure (.ok (← level s steps))
    finish none (.nested result)
    return .next
  | .cancel => .cancel do
    finish none .none
    return .next
  | .sleep ms => .sleep ms do
    finish none .none
    return .next
  | .fail message => .fail (.business message)
  | .panic message => .panic message
  | .give value => .give (.leave value)

/-- The steps of one level, up to one that ends it. -/
def level (s : Setting) : List ScriptStep → Acting Json.Value
  | [] => .give .null
  | step :: steps => do
    match ← work s step with
    | .next => level s steps
    | .leave value => return value

end

end ScriptStep

/-- A unit of work given as a script. -/
structure ScriptRun where
  steps : List ScriptStep
  failCommits : Bool
  faults : List (OutboxCall × Nat)
  token : CancelToken
  watched : Bool

/-- What one run of a script shows. -/
structure RunReport where
  ending : Ending ScriptError Json.Value
  log : List StepEntry
  hooks : List String
  staged : List String
  newRecords : List OutboxRecord
  rows : Nat
  records : Nat

namespace StagedWrite

def label? : StagedWrite → Option String
  | .label text => some text
  | .row _ => none

end StagedWrite

namespace ScriptRun

/-- Runs a script on a database and the to-dos left by earlier runs. -/
def report (r : ScriptRun) (s : ScriptStep.Setting) (db : Database) (d : Desk) :
    RunReport × Database × Desk :=
  let faults := r.faults.foldl (fun f e => f.arm e.1 e.2) db.outbox.faults
  let outbox := { db.outbox with failCommits := r.failCommits, faults := faults }
  let ran := (ScriptStep.level s r.steps).execute ScriptError.unitOfWork
    { db with outbox := outbox } r.token r.watched 0 { d with log := [] }
  let shown : RunReport :=
    { ending := ran.ending
      log := ran.notes.log
      hooks := runHooks ScriptHook.perform ran.hooks []
      staged := ran.writes.filterMap StagedWrite.label?
      newRecords := ran.db.outbox.records.drop db.outbox.records.length
      rows := ran.db.repository.size
      records := ran.db.outbox.records.length }
  (shown, ran.db, ran.notes)

def reportAll (s : ScriptStep.Setting) :
    List ScriptRun → Database → Desk → List RunReport × Database
  | [], db, _ => ([], db)
  | r :: rs, db, d =>
    let (shown, db, d) := r.report s db d
    let (rest, db) := reportAll s rs db d
    (shown :: rest, db)

end ScriptRun

namespace RunReport

/-- Whether all new rows were created at one time. -/
def sameCreatedAt (r : RunReport) : Bool :=
  match r.newRecords with
  | [] => true
  | first :: rest => rest.all fun row => row.createdAt = first.createdAt

end RunReport

end Workboard
