import Workboard.Proofs.Service.Telling
import Workboard.Proofs.Work.Interleaving

/-!
Executions that read, change and save the same to-do side by side. A look at a to-do locks nothing: as long as no one
commits between another's look and its write, the outbox tells what is stored, but an execution that was overtaken
puts the row back to what it has made of the older one.
-/

namespace Workboard

variable {σ η ε α : Type} {id : TodoId}

section accesses

variable {n m : Nat} {accesses : List Access}

theorem Overtaken.append (h : Overtaken accesses) (more : List Access) : Overtaken (accesses ++ more) := by
  obtain ⟨before, n, between, after, rfl, last, passed⟩ := h
  exact ⟨before, n, between, after ++ more, by simp, last, passed⟩

/-- Since the last look of an execution another has written. -/
def Behind (n : Nat) (accesses : List Access) : Prop :=
  ∃ before between, accesses = before ++ .looked n :: between ∧ .looked n ∉ between ∧ ∃ m, m ≠ n ∧ .wrote m ∈ between

theorem Behind.overtaken (h : Behind n accesses) : Overtaken (accesses ++ [.wrote n]) := by
  obtain ⟨before, between, rfl, last, passed⟩ := h
  exact ⟨before, n, between, [], by simp, last, passed⟩

theorem Behind.append_singleton (h : Behind n accesses) {a : Access} (other : a ≠ .looked n) :
    Behind n (accesses ++ [a]) := by
  obtain ⟨before, between, rfl, last, m, apart, wrote⟩ := h
  refine ⟨before, between ++ [a], by simp, ?_, m, apart, List.mem_append_left _ wrote⟩
  simp [last, other.symm]

/-- A write leaves behind all others that have looked. -/
theorem behind_of_wrote (looked : .looked n ∈ accesses) (other : m ≠ n) : Behind n (accesses ++ [.wrote m]) := by
  obtain ⟨late, early, split, last⟩ := List.eq_append_cons_of_mem (List.mem_reverse.mpr looked)
  have whole : accesses = early.reverse ++ .looked n :: late.reverse := by
    rw [← List.reverse_reverse accesses, split]
    simp
  refine ⟨early.reverse, late.reverse ++ [.wrote m], by simp [whole], ?_, m, other, by simp⟩
  simp [last]

end accesses

/-- What is known of an execution at the row that a to-do has. Unless it is behind, that row is among those for which
it tells what it stages. -/
def WorkPhase.Keeps (id : TodoId) (row : Option Todo) (accesses : List Access) (n : Nat) : WorkPhase σ η ε α → Prop
  | .waiting work => work.Tells id (fun _ => True) .empty
  | .working work scope _ => scope.tx.OnlyStages ∧ ∃ seen, work.Tells id seen scope ∧
      (seen row ∨ Behind n accesses) ∧ ((∀ row, seen row) ∨ .looked n ∈ accesses)
  | .ended _ _ _ => True

namespace WorkPhase.Keeps

variable {row : Option Todo} {accesses : List Access} {n m : Nat} {phase : WorkPhase σ η ε α}

theorem looked (h : phase.Keeps id row accesses m) (other : m ≠ n) :
    phase.Keeps id row (accesses ++ [.looked n]) m := by
  match phase, h with
  | .waiting _, h => exact h
  | .ended _ _ _, _ => trivial
  | .working _ _ _, ⟨stages, seen, tells, now, ever⟩ =>
    refine ⟨stages, seen, tells, now.imp_right fun behind => behind.append_singleton ?_,
      ever.imp_right (List.mem_append_left _)⟩
    rintro ⟨⟩
    exact other rfl

/-- When another writes, an execution that has looked is behind, whatever the row has become. -/
theorem wrote (h : phase.Keeps id row accesses m) (other : m ≠ n) (row' : Option Todo) :
    phase.Keeps id row' (accesses ++ [.wrote n]) m := by
  match phase, h with
  | .waiting _, h => exact h
  | .ended _ _ _, _ => trivial
  | .working _ _ _, ⟨stages, seen, tells, _, ever⟩ =>
    refine ⟨stages, seen, tells, ?_, ever.imp_right (List.mem_append_left _)⟩
    exact ever.imp (fun all => all row') fun looked => behind_of_wrote looked other.symm

end WorkPhase.Keeps

namespace WorkWorld

variable {lift : UnitOfWorkError → ε} {w : WorkWorld σ η ε α} {accesses : List Access} {n : Nat}

/-- The outbox tells what is stored of a to-do, and executions under way keep it so unless they are overtaken. -/
structure Orderly (id : TodoId) (accesses : List Access) (w : WorkWorld σ η ε α) : Prop where
  replays : w.db.Replays id
  keeps : ∀ n (phase : WorkPhase σ η ε α), w.executions[n]? = some phase →
    phase.Keeps id (w.db.repository.find? id) accesses n

/-- One execution has come to another phase, perhaps with a change of what is stored. -/
theorem Orderly.moved (h : w.Orderly id accesses) {phase : WorkPhase σ η ε α} {db : Database} {notes : σ}
    {accesses' : List Access} (replays : db.Replays id)
    (own : phase.Keeps id (db.repository.find? id) accesses' n)
    (others : ∀ m (phase : WorkPhase σ η ε α), m ≠ n → phase.Keeps id (w.db.repository.find? id) accesses m →
      phase.Keeps id (db.repository.find? id) accesses' m) :
    (⟨db, notes, w.executions.set n phase⟩ : WorkWorld σ η ε α).Orderly id accesses' := by
  refine ⟨replays, fun m other here => ?_⟩
  dsimp only at here
  rw [List.getElem?_set] at here
  split at here
  next same =>
    subst same
    split at here
    · exact Option.some.inj here ▸ own
    · cases here
  next apart => exact others m other (Ne.symm apart) (h.keeps m other here)

/-- One execution has come to another phase, and all rows are as they were. -/
theorem Orderly.still (h : w.Orderly id accesses) {phase : WorkPhase σ η ε α} {db : Database} {notes : σ}
    (records : db.outbox.records = w.db.outbox.records) (rows : db.repository = w.db.repository)
    (own : phase.Keeps id (w.db.repository.find? id) accesses n) :
    (⟨db, notes, w.executions.set n phase⟩ : WorkWorld σ η ε α).Orderly id accesses := by
  have row : db.repository.find? id = w.db.repository.find? id := by rw [rows]
  exact h.moved (h.replays.congr records row) (row ▸ own) fun m other _ keeps => row ▸ keeps

theorem access?_done (lift : UnitOfWorkError → ε) {ending : Ending ε α} {scope : Scope η} {clock : Nat}
    (here : w.executions[n]? = some (.working (.done ending) scope clock)) (unreturned : ∀ v, ending ≠ .returned v) :
    w.access? lift id (.step n) = none := by
  rw [access?, here]
  cases ending with
  | returned v => exact absurd rfl (unreturned v)
  | _ => rfl

/-- Looking is the only access of a step that is not the last one. -/
theorem access?_goes (lift : UnitOfWorkError → ε) (id : TodoId) {work next : Work σ η ε α} {scope : Scope η}
    {clock : Nat} {p : Progress σ η} (here : w.executions[n]? = some (.working work scope clock))
    (stepped : work.step (w.progress scope clock) = (.inr next, p)) :
    (∃ rest, work = .find id rest) ∧ w.access? lift id (.step n) = some (.looked n) ∨
      (∀ rest, work ≠ .find id rest) ∧ w.access? lift id (.step n) = none := by
  rw [access?, here]
  cases work with
  | done ending => cases stepped
  | find asked rest =>
    by_cases own : asked = id
    · subst own
      exact .inl ⟨⟨rest, rfl⟩, if_pos rfl⟩
    · refine .inr ⟨?_, if_neg own⟩
      rintro _ ⟨⟩
      exact own rfl
  | _ => exact .inr ⟨nofun, rfl⟩

theorem Orderly.goes (h : w.Orderly id accesses) {work next : Work σ η ε α} {scope : Scope η} {clock : Nat}
    {p : Progress σ η} (here : w.executions[n]? = some (.working work scope clock))
    (stepped : work.step (w.progress scope clock) = (.inr next, p)) :
    (w.act lift n (.working work scope clock)).Orderly id
      (accesses ++ (w.access? lift id (.step n)).toList) := by
  obtain ⟨stages, seen, tells, now, ever⟩ := h.keeps n _ here
  obtain ⟨told, rows, outbox, kept⟩ := Work.Tells.step tells stepped
  have records : p.db.outbox.records = w.db.outbox.records := congrArg OutboxStore.records outbox
  have row : p.db.repository.find? id = w.db.repository.find? id := by
    rw [rows]
    rfl
  rw [act_working stepped]
  rcases access?_goes lift id here stepped with ⟨⟨rest, rfl⟩, looks⟩ | ⟨looks_not, access⟩
  · obtain ⟨-, told⟩ := told.resolve_right fun other => other.1 rest rfl
    rw [looks]
    refine h.moved (h.replays.congr records row) ?_ fun m other apart keeps => row ▸ keeps.looked apart
    exact ⟨kept stages, _, told, .inl row, .inr (by simp)⟩
  · obtain ⟨-, told⟩ := told.resolve_left fun looks => looks_not _ looks.1.choose_spec
    rw [access, Option.toList_none, List.append_nil]
    exact h.still records rows ⟨kept stages, seen, told, now, ever⟩

theorem Orderly.concludes (h : w.Orderly id accesses) {value : α} {scope : Scope η} {clock : Nat}
    (here : w.executions[n]? = some (.working (.done (.returned value)) scope clock))
    (calm : ¬Overtaken (accesses ++ (w.access? lift id (.step n)).toList)) :
    (w.act lift n (.working (.done (.returned value)) scope clock)).Orderly id
      (accesses ++ (w.access? lift id (.step n)).toList) := by
  obtain ⟨stages, seen, tells, now, -⟩ := h.keeps n _ here
  let x : Executed σ η ε α := Work.conclude lift value (w.progress scope clock)
  have acted : w.act lift n (.working (.done (.returned value)) scope clock) = w.ends n x := rfl
  have access : w.access? lift id (.step n) =
      if x.ending.isReturned && scope.touches id then some (.wrote n) else none := by
    rw [access?, here]
  have stored := Work.conclude_stored lift value (p := w.progress scope clock) stages
  rw [acted]
  rcases stored with ⟨failed, records, rows⟩ | ⟨returned, written, ids, flushed, records, repository⟩
  · rw [access, show x.ending.isReturned = false from failed, Bool.false_and, if_neg (by simp), Option.toList_none,
      List.append_nil]
    exact h.still records rows trivial
  · have row : x.db.repository.find? id = scope.rowOf id (w.db.repository.find? id) := by
      rw [repository, Database.find?_foldl_applyWrite]
      rfl
    obtain ⟨standard, tells⟩ := tells
    have told : Database.Told id (written.map .ofNew) (scope.eventsOf id) := Collected.flush_told standard flushed id
    rw [show x.ending.isReturned = true from returned, Bool.true_and] at access
    rcases touched : scope.touches id with _ | _
    case false =>
      obtain ⟨no_events, same⟩ := Scope.untouched touched
      rw [no_events] at told
      rw [same] at row
      rw [access, touched, if_neg Bool.false_ne_true, Option.toList_none, List.append_nil]
      have effect : TodoEvent.replayAll? [] (w.db.repository.find? id) = some (x.db.repository.find? id) :=
        congrArg some row.symm
      exact h.moved (h.replays.told records told effect) trivial fun m other _ keeps => row ▸ keeps
    case true =>
      -- What it has last found is still the row, or it would be overtaken with this commit.
      rw [access, touched, if_pos rfl, Option.toList_some] at calm ⊢
      have current : seen (w.db.repository.find? id) := now.resolve_right fun behind => calm behind.overtaken
      have effect : TodoEvent.replayAll? (scope.eventsOf id) (w.db.repository.find? id) =
          some (x.db.repository.find? id) := (tells _ current).trans (congrArg some row.symm)
      exact h.moved (h.replays.told records told effect) trivial fun m _ apart keeps => keeps.wrote apart _

theorem Orderly.stops (h : w.Orderly id accesses) {work : Work σ η ε α} {scope : Scope η} {clock : Nat}
    {outcome : Outcome ε α} {p : Progress σ η} (here : w.executions[n]? = some (.working work scope clock))
    (stepped : work.step (w.progress scope clock) = (.inl outcome, p))
    (calm : ¬Overtaken (accesses ++ (w.access? lift id (.step n)).toList)) :
    (w.act lift n (.working work scope clock)).Orderly id
      (accesses ++ (w.access? lift id (.step n)).toList) := by
  have acted : w.act lift n (.working work scope clock) = w.ends n (Work.finish lift outcome p) := by
    rw [act, stepped]
  have given_up (silent : w.access? lift id (.step n) = none) (db : p.db = w.db)
      (stages : p.scope.tx.OnlyStages) (unreturned : ∀ v, outcome ≠ .ended (.returned v)) :
      (w.act lift n (.working work scope clock)).Orderly id
        (accesses ++ (w.access? lift id (.step n)).toList) := by
    obtain ⟨records, rows⟩ := Work.finish_stored lift outcome unreturned stages
    rw [acted, silent, Option.toList_none, List.append_nil]
    exact h.still (db ▸ records) (db ▸ rows) trivial
  obtain ⟨stages, -⟩ := h.keeps n _ here
  rcases Work.step_last stepped with ⟨ending, rfl, rfl, rfl⟩ | ⟨⟨ms, next, rfl⟩, rfl, db, scope_same⟩
  · cases ending with
    | returned value => exact h.concludes here calm
    | failed e => exact given_up (access?_done lift here (by rintro v ⟨⟩)) rfl stages (by rintro v ⟨⟩)
    | panicked m => exact given_up (access?_done lift here (by rintro v ⟨⟩)) rfl stages (by rintro v ⟨⟩)
  · have silent : w.access? lift id (.step n) = none := by rw [access?, here]
    exact given_up silent db (scope_same ▸ stages) (by rintro v ⟨⟩)

theorem Orderly.after (h : w.Orderly id accesses) (e : WorkEvent)
    (calm : ¬Overtaken (accesses ++ (w.access? lift id e).toList)) :
    (w.after lift e).Orderly id (accesses ++ (w.access? lift id e).toList) := by
  have silent (none_seen : w.access? lift id e = none) (stays : (w.after lift e).Orderly id accesses) :
      (w.after lift e).Orderly id (accesses ++ (w.access? lift id e).toList) := by
    rwa [none_seen, Option.toList_none, List.append_nil]
  cases e with
  | failCommits on => exact silent rfl ⟨h.replays.congr rfl rfl, h.keeps⟩
  | abandon n =>
    refine silent rfl ?_
    rcases here : w.executions[n]? with _ | (work | ⟨work, scope, clock⟩ | _)
    · simpa only [WorkWorld.after, here] using h
    · simp only [WorkWorld.after, here]
      exact h.still rfl rfl trivial
    · obtain ⟨stages, -⟩ := h.keeps n _ here
      obtain ⟨records, rows⟩ := Work.finish_stored lift (.cancelled : Outcome ε α) (by rintro v ⟨⟩)
        (p := w.progress scope clock) stages
      simp only [WorkWorld.after, here]
      exact h.still records rows trivial
    · simpa only [WorkWorld.after, here] using h
  | step n =>
    rcases here : w.executions[n]? with _ | (work | ⟨work, scope, clock⟩ | _)
    · refine silent (by rw [access?, here]) ?_
      simpa only [WorkWorld.after, here] using h
    · refine silent (by rw [access?, here]) ?_
      have keeps := h.keeps n _ here
      rw [after_step lift here, act]
      split
      next outbox panicked => exact h.still (OutboxStore.of_strike panicked).1 rfl trivial
      next passed begun =>
        have same := (OutboxStore.of_strike begun).1
        split
        next outbox failed => exact h.still ((OutboxStore.of_strike failed).1.trans same) rfl trivial
        next outbox ready =>
          -- It has not looked yet, and tells what it stages for any row.
          exact h.still ((OutboxStore.of_strike ready).1.trans same) rfl
            ⟨⟨rfl, rfl, rfl⟩, _, keeps, .inl trivial, .inl fun _ => trivial⟩
    · rcases stepped : work.step (w.progress scope clock) with ⟨outcome | next, p⟩
      · rw [after_step lift here]
        exact h.stops here stepped calm
      · rw [after_step lift here]
        exact h.goes here stepped
    · refine silent (by rw [access?, here]) ?_
      rw [after_step lift here]
      exact h

theorem Orderly.run (h : w.Orderly id accesses) (schedule : List WorkEvent)
    (calm : ¬Overtaken (accesses ++ w.accesses lift id schedule)) :
    (w.run lift schedule).Orderly id (accesses ++ w.accesses lift id schedule) := by
  induction schedule generalizing w accesses with
  | nil => rwa [WorkWorld.accesses, List.append_nil]
  | cons e schedule ih =>
    rw [WorkWorld.accesses, ← List.append_assoc] at calm ⊢
    exact ih (h.after e fun overtaken => calm (overtaken.append _)) calm

/-- Executions read, change and save to-dos side by side, in any order of their steps, are given up, and find that
they cannot commit. As long as no one commits a change of a to-do between the last look that another took at it and
the other's own commit, replaying the events of the to-do in the order in which they were committed gives exactly its
stored row, or its absence. A look does not keep others from committing, and an execution that was overtaken stores
what it has made of the older row. -/
theorem replays_unless_overtaken (lift : UnitOfWorkError → ε) (w : WorkWorld σ η ε α) (id : TodoId)
    (start : w.db.Replays id)
    (tells : ∀ phase ∈ w.executions, ∃ work, phase = .waiting work ∧ work.Tells id (fun _ => True) .empty)
    (schedule : List WorkEvent) (calm : ¬Overtaken (w.accesses lift id schedule)) :
    (w.run lift schedule).db.Replays id := by
  have begins : w.Orderly id [] := by
    refine ⟨start, fun n phase here => ?_⟩
    obtain ⟨work, rfl, told⟩ := tells phase (List.mem_of_getElem? here)
    exact told
  exact (begins.run schedule calm).replays

open TodoService

/-- A to-do is stored, and three executions are about to rename, complete and delete it. -/
def workers : WorkWorld SteppingClock ChangedTodo ServiceError Todo :=
  ⟨(unused.run [.create shop "milk"]).db, unused.clock,
    [.waiting (Task.rename .standard firstTodo "tea"), .waiting (Task.complete .standard firstTodo),
      .waiting (Task.delete .standard firstTodo)]⟩

def steps (k n : Nat) : List WorkEvent := List.replicate k (.step n)

/-- The deletion looks first and is given up after the others have committed. -/
def takingTurns : List WorkEvent := steps 2 2 ++ steps 1 1 ++ steps 8 0 ++ steps 7 1 ++ [.abandon 2]

theorem replays_unless_overtaken_turns :
    workers.db.Replays firstTodo ∧ ¬Overtaken (workers.accesses ServiceError.unitOfWork firstTodo takingTurns) ∧
      (workers.run ServiceError.unitOfWork takingTurns).db.Replays firstTodo ∧
      ((workers.run ServiceError.unitOfWork takingTurns).db.repository.find? firstTodo).map
        (fun t => (t.title, t.completed)) = some ("tea", true) := by
  have start : workers.db.Replays firstTodo :=
    ⟨[⟨firstTodo, shop, .created "milk", unused.clock.now⟩], by decide +kernel, by decide +kernel⟩
  have tells : ∀ phase ∈ workers.executions, ∃ work, phase = .waiting work ∧
      work.Tells firstTodo (fun _ => True) .empty := by
    rintro phase mem
    simp only [workers, List.mem_cons, List.not_mem_nil, or_false] at mem
    rcases mem with rfl | rfl | rfl
    · exact ⟨_, rfl, mutate_tells firstTodo fun _ _ _ => TrackedTodo.rename_changes⟩
    · exact ⟨_, rfl, mutate_tells firstTodo fun old now _ completed =>
        Except.ok.inj completed ▸ TrackedTodo.complete_changes old now⟩
    · exact ⟨_, rfl, delete_tells firstTodo⟩
  have accesses : workers.accesses ServiceError.unitOfWork firstTodo takingTurns =
      [.looked 2, .looked 0, .wrote 0, .looked 1, .wrote 1] := by decide +kernel
  have calm : ¬Overtaken (workers.accesses ServiceError.unitOfWork firstTodo takingTurns) := by
    rw [accesses, Overtaken]
    -- Each look and each write of the list in turn.
    simp only [List.cons_eq_append_iff, List.append_eq_cons_iff, List.append_eq_nil_iff, List.nil_eq, List.cons.injEq,
      Access.looked.injEq, Access.wrote.injEq, reduceCtorEq, false_and, and_false, false_or, or_false, true_and,
      exists_const, ↓existsAndEq]
    grind
  exact ⟨start, calm, replays_unless_overtaken _ workers firstTodo start tells takingTurns calm, by decide +kernel⟩

/-- The second execution looks and commits between the look and the commit of the first. -/
def overtaking : List WorkEvent := steps 7 0 ++ steps 8 1 ++ steps 1 0

/-- Both executions have returned, and their events are in the outbox, but of their changes the row has only the one
that was stored last. -/
theorem overtaken_change_lost :
    let last := workers.run ServiceError.unitOfWork overtaking
    last.executions.map WorkPhase.hasReturned = [true, true, false] ∧
      last.db.outbox.records.map (·.eventType) = ["todo.created", "todo.completed", "todo.renamed"] ∧
      (last.db.repository.find? firstTodo).map (fun t => (t.title, t.completed)) = some ("tea", false) ∧
      ¬last.db.Replays firstTodo := by
  refine ⟨by decide +kernel, by decide +kernel, by decide +kernel, fun replays => ?_⟩
  exact absurd replays.replayed (by decide +kernel)

end WorkWorld

end Workboard
