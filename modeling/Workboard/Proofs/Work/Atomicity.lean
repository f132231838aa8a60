import Workboard.Proofs.Outbox.Claims
import Workboard.Work.Execute

/-!
All or nothing. An execution that does not return a value has stopped at one step, says which in its
ending, and leaves rows, to-dos and claims as it found them.
-/

namespace Workboard

/-- The steps at which an execution can stop, in their order. -/
inductive Stop (ε : Type) where
  | cancelledBefore
  | beginPanicked
  | notBegun (e : OutboxError)
  | cancelled
  | failed (e : ε)
  | panicked (message : String)
  | refused (e : MappingError)
  | notAppended (e : OutboxError)
  | cancelledAfter
  | notCommitted (e : OutboxError)

/-- What the caller is told. What the business itself says is passed on as it is. -/
def Stop.ending {ε α : Type} (lift : UnitOfWorkError → ε) : Stop ε → Ending ε α
  | .cancelledBefore | .cancelled | .cancelledAfter => .failed (lift .cancelled)
  | .beginPanicked => .panicked "begin panicked"
  | .notBegun e | .notAppended e | .notCommitted e => .failed (lift (.outbox e))
  | .failed e => .failed e
  | .panicked m => .panicked m
  | .refused e => .failed (lift (.mapping e))

/-- The error with which a mapper refuses an event, if it does. -/
def EventMapper.refusal? (mapper : EventMapper) (event : TodoEvent) : Option MappingError :=
  match mapper event with
  | .error err => some err
  | .ok _ => none

def Collected.refusal? (c : Collected) : Option MappingError := c.events.findSome? c.mapper.refusal?

namespace Collected

theorem records_error_iff {kind : String} {aggregate : Uuid} {mapper : EventMapper} {now : Instant}
    {events : List TodoEvent} {ids : IdSupply} {err : MappingError} :
    records kind aggregate mapper now events ids = .error err ↔
      events.findSome? mapper.refusal? = some err := by
  induction events generalizing ids with
  | nil => simp [records]
  | cons e es ih =>
    rw [records, List.findSome?_cons]
    cases hm : mapper e with
    | error err => simp [EventMapper.refusal?, hm]
    | ok mapped =>
      simp only [EventMapper.refusal?, hm]
      cases mapped with
      | none => exact ih
      | some m =>
        rw [← @ih ids.fresh.2]
        cases records kind aggregate mapper now es ids.fresh.2 <;> simp

/-- What was collected becomes rows unless some mapper refuses an event; the first refusal counts. -/
theorem flush_error_iff {now : Instant} {cs : List Collected} {ids : IdSupply} {err : MappingError} :
    flush now cs ids = .error err ↔ cs.findSome? refusal? = some err := by
  induction cs generalizing ids with
  | nil => simp [flush]
  | cons c cs ih =>
    rw [flush, List.findSome?_cons]
    cases hr : records c.aggregateType c.aggregateId c.mapper now c.events ids with
    | error e => simp [refusal?, records_error_iff.mp hr]
    | ok out =>
      obtain ⟨rows, ids'⟩ := out
      have accepted : c.refusal? = none := by
        cases hc : c.refusal? with
        | none => rfl
        | some e => cases hr.symm.trans (records_error_iff.mpr hc)
      rw [accepted]
      simp only [← @ih ids']
      cases flush now cs ids' <;> simp

end Collected

@[simp] theorem Scope.collect_tx {η : Type} (s : Scope η) (mapper : EventMapper) (t : TrackedTodo) :
    (s.collect mapper t).2.tx = s.tx := by
  unfold Scope.collect
  dsimp only
  split <;> rfl

/-- Nothing but the claims of an open transaction tells the stored state from that before it. -/
structure Database.Clean (db now : Database) (tx : Transaction StagedWrite) : Prop where
  records : now.outbox.records = db.outbox.records
  repository : now.repository = db.repository
  claims : now.outbox.Holds db.outbox.claimed tx

/-- The stored state of an earlier moment in all that others can see of it. -/
structure Database.Restored (db now : Database) : Prop where
  records : now.outbox.records = db.outbox.records
  repository : now.repository = db.repository
  claimed : now.outbox.claimed = db.outbox.claimed

/-- An execution without effect: nothing stored, no write carried out, no hook due. -/
structure Executed.Undone {σ η ε α : Type} (db : Database) (x : Executed σ η ε α) : Prop where
  restored : db.Restored x.db
  writes : x.writes = []
  hooks : x.hooks = []

namespace Database.Clean

variable {db now : Database} {tx : Transaction StagedWrite}

theorem quiet (h : db.Clean now tx) {r : Except OutboxError (Transaction StagedWrite) × OutboxStore}
    (hr : now.outbox.Quiet tx r) :
    db.Clean { now with outbox := r.2 } tx ∧
      ∀ ux, r.1 = .ok ux → db.Clean { now with outbox := r.2 } ux := by
  refine ⟨⟨hr.records.trans h.records, h.repository, h.claims.congr hr.claimed rfl⟩, ?_⟩
  intro ux hu
  exact ⟨hr.records.trans h.records, h.repository, h.claims.congr hr.claimed (hr.own ux hu)⟩

theorem appendAll (h : db.Clean now tx) {records : List NewRecord}
    {r : Except OutboxError (Transaction StagedWrite)} {after : Database}
    (ha : now.appendAll tx records = (r, after)) :
    db.Clean after tx ∧ ∀ ux, r = .ok ux → db.Clean after ux := by
  unfold Database.appendAll at ha
  split at ha
  next =>
    cases ha
    refine ⟨h, ?_⟩
    intro ux hu
    cases hu
    exact h
  next =>
    cases ha
    exact h.quiet (now.outbox.quiet_tryAppend tx records)

theorem appends (h : db.Clean now tx) {ids : IdSupply} {records : List NewRecord}
    {r : Except OutboxError (Transaction StagedWrite)} {after : Database}
    (ha : { now with ids := ids }.appendAll tx records = (r, after)) :
    db.Clean after tx ∧ ∀ ux, r = .ok ux → db.Clean after ux := by
  have drawn : db.Clean { now with ids := ids } tx := ⟨h.records, h.repository, h.claims⟩
  exact drawn.appendAll ha

theorem rollback (h : db.Clean now tx) : db.Restored (now.rollback tx) :=
  ⟨h.records, h.repository, (h.claims.congr rfl rfl).rollback⟩

theorem commit_error (h : db.Clean now tx) {e : OutboxError} {after : Database}
    (hc : now.commit tx = (.error e, after)) : db.Restored after := by
  unfold Database.commit at hc
  split at hc
  next ht =>
    cases hc
    obtain ⟨hr, hcl⟩ := OutboxStore.tryCommit_error ht
    exact ⟨hr.trans h.records, h.repository, hcl.trans h.claims.rollback⟩
  next => cases hc

end Database.Clean

theorem Progress.clean_keep {σ η : Type} {db : Database} {p : Progress σ η}
    {r : Except OutboxError (Transaction StagedWrite) × OutboxStore}
    (h : db.Clean p.db p.scope.tx) (hr : p.db.outbox.Quiet p.scope.tx r) :
    db.Clean (p.keep r).2.db (p.keep r).2.scope.tx := by
  obtain ⟨_ | tx, store⟩ := r
  · exact (h.quiet hr).1
  · exact (h.quiet hr).2 tx rfl

namespace Work

variable {σ η ε α : Type}

/-- No step of some work touches the stored state, whatever it answers to the steps after it. -/
theorem run_clean (work : Work σ η ε α) {db : Database} {p : Progress σ η}
    (h : db.Clean p.db p.scope.tx) : db.Clean (work.run p).2.db (work.run p).2.scope.tx := by
  induction work generalizing p with
  | done ending => exact h
  | look next ih => exact ih _ h
  | note notes next ih => exact ih ⟨h.records, h.repository, h.claims⟩
  | freshId next ih => exact ih _ ⟨h.records, h.repository, h.claims⟩
  | find id next ih => exact ih _ h
  | collect mapper t next ih =>
    have kept := congrArg (·.claimed) (p.scope.collect_tx mapper t)
    exact ih _ ⟨h.records, h.repository, h.claims.congr rfl kept⟩
  | stage write next ih => exact ih ⟨h.records, h.repository, h.claims.congr rfl rfl⟩
  | append records next ih => exact ih _ (p.clean_keep h (OutboxStore.quiet_tryAppend _ _ _))
  | fetch limit next ih =>
    exact ih _ ⟨(OutboxStore.tryFetch_records _ _ _).trans h.records, h.repository,
      h.claims.tryFetch limit⟩
  | markProcessed id next ih => exact ih _ (p.clean_keep h (OutboxStore.quiet_tryMark _ _ _))
  | markFailed id error next ih => exact ih _ (p.clean_keep h (OutboxStore.quiet_tryMark _ _ _))
  | afterCommit hook next ih => exact ih ⟨h.records, h.repository, h.claims⟩
  | counts next ih => exact ih _ _ h
  | cancel next ih =>
    simp only [run]
    split
    · exact ih ⟨h.records, h.repository, h.claims⟩
    · exact ih h
  | sleep ms next ih =>
    simp only [run]
    split
    · exact ⟨h.records, h.repository, h.claims⟩
    · exact ih ⟨h.records, h.repository, h.claims⟩

/-- A transaction opens: no one had cancelled, and the outbox let it begin. -/
def Opens (db : Database) (token : CancelToken) (begun : Database) : Prop :=
  token.cancelled = false ∧ ∃ passed, db.outbox.strike .beginPanic = (false, passed) ∧
    ∃ outbox, passed.strike .begin = (false, outbox) ∧ begun = { db with outbox := outbox }

def Ends (work : Work σ η ε α) (db : Database) (token : CancelToken) (watched : Bool) (clock : Nat)
    (notes : σ) (outcome : Outcome ε α) (p : Progress σ η) : Prop :=
  ∃ begun, Opens db token begun ∧
    work.run ⟨begun, .empty, token, watched, clock, notes⟩ = (outcome, p)

def Appends (p : Progress σ η) (r : Except OutboxError (Transaction StagedWrite) × Database) : Prop :=
  ∃ records ids, Collected.flush p.db.now p.scope.collected p.db.ids = .ok (records, ids) ∧
    { p.db with ids := ids }.appendAll p.scope.tx records = r

/-- The step at which an execution stops, all steps before it having gone well. -/
inductive StopsAt (work : Work σ η ε α) (db : Database) (token : CancelToken) (watched : Bool)
    (clock : Nat) (notes : σ) : Stop ε → Prop
  | cancelledBefore : token.cancelled = true →
    StopsAt work db token watched clock notes .cancelledBefore
  | beginPanicked {passed} : token.cancelled = false →
    db.outbox.strike .beginPanic = (true, passed) →
    StopsAt work db token watched clock notes .beginPanicked
  | notBegun {passed outbox} : token.cancelled = false →
    db.outbox.strike .beginPanic = (false, passed) → passed.strike .begin = (true, outbox) →
    StopsAt work db token watched clock notes (.notBegun OutboxCall.begin.fault)
  | cancelled {p} : work.Ends db token watched clock notes .cancelled p →
    StopsAt work db token watched clock notes .cancelled
  | failed {e p} : work.Ends db token watched clock notes (.ended (.failed e)) p →
    StopsAt work db token watched clock notes (.failed e)
  | panicked {m p} : work.Ends db token watched clock notes (.ended (.panicked m)) p →
    StopsAt work db token watched clock notes (.panicked m)
  | refused {value p err} : work.Ends db token watched clock notes (.ended (.returned value)) p →
    p.scope.collected.findSome? Collected.refusal? = some err →
    StopsAt work db token watched clock notes (.refused err)
  | notAppended {value p e after} :
    work.Ends db token watched clock notes (.ended (.returned value)) p →
    Appends p (.error e, after) → StopsAt work db token watched clock notes (.notAppended e)
  | cancelledAfter {value p tx after} :
    work.Ends db token watched clock notes (.ended (.returned value)) p →
    Appends p (.ok tx, after) → p.token.cancelled = true →
    StopsAt work db token watched clock notes .cancelledAfter
  | notCommitted {value p tx after e gone} :
    work.Ends db token watched clock notes (.ended (.returned value)) p →
    Appends p (.ok tx, after) → p.token.cancelled = false → after.commit tx = (.error e, gone) →
    StopsAt work db token watched clock notes (.notCommitted e)

section

variable {work : Work σ η ε α} {lift : UnitOfWorkError → ε} {db : Database} {token : CancelToken}
  {watched : Bool} {clock : Nat} {notes : σ}

theorem Ends.clean {outcome : Outcome ε α} {p : Progress σ η}
    (h : work.Ends db token watched clock notes outcome p) : db.Clean p.db p.scope.tx := by
  obtain ⟨begun, ⟨_, passed, hp, outbox, hb, rfl⟩, hr⟩ := h
  have seen := OutboxStore.of_strike hb
  have seen' := OutboxStore.of_strike hp
  have start : db.Clean { db with outbox := outbox } .empty :=
    ⟨seen.1.trans seen'.1, rfl, (OutboxStore.holds_empty db.outbox).congr (seen.2.trans seen'.2) rfl⟩
  let first : Progress σ η := ⟨{ db with outbox := outbox }, .empty, token, watched, clock, notes⟩
  have := run_clean work (show db.Clean first.db first.scope.tx from start)
  rwa [hr] at this

theorem execute_of_ends {outcome : Outcome ε α} {p : Progress σ η}
    (h : work.Ends db token watched clock notes outcome p) :
    work.execute lift db token watched clock notes = finish lift outcome p := by
  obtain ⟨begun, ⟨hc, passed, hp, outbox, hb, rfl⟩, hr⟩ := h
  simp only [execute, hc, Bool.false_eq_true, if_false, hp, hb, hr]

/-- A conclusion that takes effect is a commit; otherwise it has stopped at one of its steps. -/
theorem conclude_cases (lift : UnitOfWorkError → ε) {value : α} {p : Progress σ η}
    (h : work.Ends db token watched clock notes (.ended (.returned value)) p) :
    (conclude lift value p : Executed σ η ε α).ending = .returned value ∨
      ∃ stop, work.StopsAt db token watched clock notes stop := by
  cases hf : Collected.flush p.db.now p.scope.collected p.db.ids with
  | error err => exact .inr ⟨_, .refused h (Collected.flush_error_iff.mp hf)⟩
  | ok out =>
    obtain ⟨records, ids⟩ := out
    rcases ha : { p.db with ids := ids }.appendAll p.scope.tx records with ⟨r, after⟩
    cases r with
    | error e => exact .inr ⟨_, .notAppended h ⟨records, ids, hf, ha⟩⟩
    | ok tx =>
      cases hc : p.token.cancelled with
      | true => exact .inr ⟨_, .cancelledAfter h ⟨records, ids, hf, ha⟩ hc⟩
      | false =>
        rcases ht : after.commit tx with ⟨r, final⟩
        cases r with
        | error e => exact .inr ⟨_, .notCommitted h ⟨records, ids, hf, ha⟩ hc ht⟩
        | ok writes => exact .inl (by simp [conclude, hf, ha, hc, ht])

theorem ends_or_stops (work : Work σ η ε α) (lift : UnitOfWorkError → ε) (db : Database)
    (token : CancelToken) (watched : Bool) (clock : Nat) (notes : σ) :
    (∃ outcome p, work.Ends db token watched clock notes outcome p) ∨
      ∃ stop, work.StopsAt db token watched clock notes stop ∧
        (work.execute lift db token watched clock notes).db.ids = db.ids := by
  cases hc : token.cancelled with
  | true => exact .inr ⟨_, .cancelledBefore hc, by simp [execute, hc]⟩
  | false =>
    rcases hp : db.outbox.strike .beginPanic with ⟨_ | _, passed⟩
    case true => exact .inr ⟨_, .beginPanicked hc hp, by simp [execute, hc, hp]⟩
    rcases hb : passed.strike .begin with ⟨_ | _, outbox⟩
    case true => exact .inr ⟨_, .notBegun hc hp hb, by simp [execute, hc, hp, hb]⟩
    rcases hr : work.run ⟨{ db with outbox := outbox }, .empty, token, watched, clock, notes⟩ with
      ⟨outcome, p⟩
    exact .inl ⟨outcome, p, _, ⟨hc, passed, hp, outbox, hb, rfl⟩, hr⟩

theorem execute_cases (work : Work σ η ε α) (lift : UnitOfWorkError → ε) (db : Database)
    (token : CancelToken) (watched : Bool) (clock : Nat) (notes : σ) :
    (∃ value, (work.execute lift db token watched clock notes).ending = .returned value) ∨
      ∃ stop, work.StopsAt db token watched clock notes stop := by
  rcases work.ends_or_stops lift db token watched clock notes with ⟨outcome, p, ends⟩ | ⟨stop, stops, -⟩
  · match outcome with
    | .cancelled => exact .inr ⟨_, .cancelled ends⟩
    | .ended (.failed e) => exact .inr ⟨_, .failed ends⟩
    | .ended (.panicked m) => exact .inr ⟨_, .panicked ends⟩
    | .ended (.returned value) =>
      rcases conclude_cases lift ends with done | stop
      · exact .inl ⟨value, (congrArg _ (execute_of_ends ends)).trans done⟩
      · exact .inr stop
  · exact .inr ⟨stop, stops⟩

theorem execute_of_stopsAt (lift : UnitOfWorkError → ε) {stop : Stop ε}
    (h : work.StopsAt db token watched clock notes stop) :
    (work.execute lift db token watched clock notes).ending = stop.ending lift ∧
      (work.execute lift db token watched clock notes).Undone db := by
  cases h with
  | cancelledBefore hc =>
    simp only [execute, hc, if_true]
    exact ⟨rfl, ⟨rfl, rfl, rfl⟩, rfl, rfl⟩
  | beginPanicked hc hp =>
    simp only [execute, hc, Bool.false_eq_true, if_false, hp]
    have seen := OutboxStore.of_strike hp
    exact ⟨rfl, ⟨seen.1, rfl, seen.2⟩, rfl, rfl⟩
  | notBegun hc hp hb =>
    simp only [execute, hc, Bool.false_eq_true, if_false, hp, hb]
    have seen := OutboxStore.of_strike hp
    have seen' := OutboxStore.of_strike hb
    exact ⟨rfl, ⟨seen'.1.trans seen.1, rfl, seen'.2.trans seen.2⟩, rfl, rfl⟩
  | cancelled ends =>
    rw [execute_of_ends ends]
    exact ⟨rfl, ends.clean.rollback, rfl, rfl⟩
  | failed ends =>
    rw [execute_of_ends ends]
    exact ⟨rfl, ends.clean.rollback, rfl, rfl⟩
  | panicked ends =>
    rw [execute_of_ends ends]
    exact ⟨rfl, ends.clean.rollback, rfl, rfl⟩
  | refused ends hf =>
    rw [execute_of_ends ends]
    simp only [finish, conclude, Collected.flush_error_iff.mpr hf]
    exact ⟨rfl, ends.clean.rollback, rfl, rfl⟩
  | notAppended ends ha =>
    obtain ⟨records, ids, hf, ha⟩ := ha
    rw [execute_of_ends ends]
    simp only [finish, conclude, hf, ha]
    exact ⟨rfl, (ends.clean.appends ha).1.rollback, rfl, rfl⟩
  | cancelledAfter ends ha hc =>
    obtain ⟨records, ids, hf, ha⟩ := ha
    rw [execute_of_ends ends]
    simp only [finish, conclude, hf, ha, hc, if_true]
    exact ⟨rfl, ((ends.clean.appends ha).2 _ rfl).rollback, rfl, rfl⟩
  | notCommitted ends ha hc ht =>
    obtain ⟨records, ids, hf, ha⟩ := ha
    rw [execute_of_ends ends]
    simp only [finish, conclude, hf, ha, hc, Bool.false_eq_true, if_false, ht]
    exact ⟨rfl, ((ends.clean.appends ha).2 _ rfl).commit_error ht, rfl, rfl⟩

end

/-- An execution that returns no value stops at some step and leaves nothing behind, and its ending
tells the step. -/
theorem execute_all_or_nothing (work : Work σ η ε α) (lift : UnitOfWorkError → ε) (db : Database)
    (token : CancelToken) (watched : Bool) (clock : Nat) (notes : σ)
    (unfinished : ∀ value, (work.execute lift db token watched clock notes).ending ≠ .returned value) :
    let done := work.execute lift db token watched clock notes
    done.Undone db ∧
      (∃ stop, work.StopsAt db token watched clock notes stop) ∧
      ∀ stop, work.StopsAt db token watched clock notes stop → done.ending = stop.ending lift := by
  have told : ∀ stop, work.StopsAt db token watched clock notes stop →
      (work.execute lift db token watched clock notes).ending = stop.ending lift :=
    fun stop h => (execute_of_stopsAt lift h).1
  obtain ⟨value, returned⟩ | ⟨stop, stops⟩ :=
    work.execute_cases lift db token watched clock notes
  · exact absurd returned (unfinished value)
  · exact ⟨(execute_of_stopsAt lift stops).2, ⟨stop, stops⟩, told⟩

def waitingRow : NewRecord :=
  ⟨⟨1⟩, "todo.deleted", "todo", ⟨2⟩, [], [], ⟨⟨2025, 2, 3, rfl⟩, 10, 15, 0, 0, rfl⟩⟩

/-- A store in which that row waits and another one is held by someone else. -/
def halfTaken : Database :=
  ⟨⟨[.ofNew waitingRow, .ofNew { waitingRow with id := .nil }], [.nil], false, .none⟩, .empty, .empty,
    waitingRow.createdAt⟩

/-- Marks the row that waits, loses a nested piece of work, stages a removal, adds a row, takes the row
that waits, and is cancelled before it returns. -/
def interrupted : Work Unit String String Unit :=
  let lost : Work Unit String String Unit := .afterCommit "lost" (fail "lost")
  .markProcessed waitingRow.id fun _ => lost.attempt.bind fun _ =>
    .stage (.row (.remove ⟨waitingRow.aggregateId⟩)) <|
      .append [waitingRow] fun _ => .fetch 1 fun _ => .cancel (give ())

theorem execute_interrupted :
    let done := interrupted.execute UnitOfWorkError.message halfTaken .never true 0 ()
    (∀ value, done.ending ≠ .returned value) ∧ done.Undone halfTaken ∧
      done.ending = .failed (UnitOfWorkError.message .cancelled) := by
  intro done
  have ending : done.ending = .failed (UnitOfWorkError.message .cancelled) := rfl
  have unfinished : ∀ value, done.ending ≠ .returned value := by
    intro value h
    cases ending.symm.trans h
  have nothing := execute_all_or_nothing interrupted UnitOfWorkError.message halfTaken .never true 0 ()
    unfinished
  exact ⟨unfinished, nothing.1, ending⟩

end Work

end Workboard
