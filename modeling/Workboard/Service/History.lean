import Workboard.Service.Basic

/-!
What happens to a service over time: calls, fills that are carried out later, clocks that move, commits that
begin or cease to fail, and a cache whose store fails at some calls.
-/

namespace Workboard

inductive ServiceEvent where
  | create (workspace : WorkspaceId) (title : String)
  | rename (id : TodoId) (title : String)
  | complete (id : TodoId)
  | reopen (id : TodoId)
  | delete (id : TodoId)
  | get (id : TodoId)
  | list (workspace : WorkspaceId)
  /-- From now on commits fail, or no longer fail. -/
  | failCommits (on : Bool)
  /-- A call of the outbox is to fail a number of times. -/
  | fault (call : OutboxCall) (times : Nat)
  /-- The clocks of the to-dos and of the outbox are set. -/
  | clocks (clock : SteppingClock) (now : Instant)
  /-- Time passes for the entries of the cache. -/
  | wait (ms : Nat)
  /-- One of the fills that are still to be done is done; it pauses before it adds its tags. -/
  | fill (place pause : Nat)

/-- The workspace of the to-do that an event is to change, if there is that to-do. -/
def ServiceEvent.home? (db : Database) : ServiceEvent → Option WorkspaceId
  | .create workspace _ => some workspace
  | .rename id _ => (db.repository.find? id).map (·.workspaceId)
  | .complete id => (db.repository.find? id).map (·.workspaceId)
  | .reopen id => (db.repository.find? id).map (·.workspaceId)
  | .delete id => (db.repository.find? id).map (·.workspaceId)
  | _ => none

namespace TodoService

def onOutbox (s : TodoService) (f : OutboxStore → OutboxStore) : TodoService :=
  { s with db := { s.db with outbox := f s.db.outbox } }

/-- Does one fill, if there is one at the place. -/
def doFill (s : TodoService) (place pause : Nat) : TodoService :=
  match s.fills[place]? with
  | none => s
  | some f =>
    { s with
      cache := s.cache.map fun c =>
        { c with aside := f.runSlowly s.wall (s.wall + pause) c.aside }
      fills := s.fills.eraseIdx place
      wall := s.wall + pause }

def after (s : TodoService) : ServiceEvent → TodoService
  | .create workspace title => (s.create workspace title).2
  | .rename id title => (s.rename id title).2
  | .complete id => (s.complete id).2
  | .reopen id => (s.reopen id).2
  | .delete id => (s.delete id).2
  | .get id => (s.get id).2
  | .list workspace => (s.list workspace).2
  | .failCommits on => s.onOutbox fun o => { o with failCommits := on }
  | .fault call times => s.onOutbox fun o => { o with faults := o.faults.arm call times }
  | .clocks clock now => { s with clock := clock, db := { s.db with now := now } }
  | .wait ms => { s with wall := s.wall + ms }
  | .fill place pause => s.doFill place pause

def run (s : TodoService) (history : List ServiceEvent) : TodoService := history.foldl after s

/-- What a change answers; a deletion does not answer with the to-do. -/
def reply? (s : TodoService) : ServiceEvent → Option (Except ServiceError (Option Todo))
  | .create workspace title => some ((s.create workspace title).1.map some)
  | .rename id title => some ((s.rename id title).1.map some)
  | .complete id => some ((s.complete id).1.map some)
  | .reopen id => some ((s.reopen id).1.map some)
  | .delete id => some ((s.delete id).1.map fun _ => none)
  | _ => none

/-- Whether an event is a change of a to-do in a workspace, and succeeds. -/
def changes (s : TodoService) (workspace : WorkspaceId) (e : ServiceEvent) : Bool :=
  match s.reply? e with
  | some (.ok _) => e.home? s.db = some workspace
  | _ => false

/-- How many changes of to-dos in a workspace succeed in a run. -/
def changesIn (s : TodoService) (workspace : WorkspaceId) : List ServiceEvent → Nat
  | [] => 0
  | e :: history => (if s.changes workspace e then 1 else 0) + (s.after e).changesIn workspace history

end TodoService

/-- What happens to a service whose cache can fail. -/
inductive ServiceTurn where
  | event (e : ServiceEvent)
  | revision (workspace : WorkspaceId)
  /-- From now on the cache's store is down or up, and its calls fail as planned. -/
  | cacheFaults (failing : Bool) (faults : Faults CacheCall)

namespace TodoService

def afterTurn (s : TodoService) : ServiceTurn → TodoService
  | .event e => s.after e
  | .revision workspace => (s.revision workspace).2
  | .cacheFaults failing faults => s.onStore fun m => { m with failing := failing, faults := faults }

def runTurns (s : TodoService) (history : List ServiceTurn) : TodoService := history.foldl afterTurn s

end TodoService

end Workboard
