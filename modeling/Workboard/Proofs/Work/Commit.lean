import Workboard.Proofs.Uuid
import Workboard.Proofs.Work.Atomicity

/-!
What an execution does that returns a value: the rows of its events are written behind those that it added
itself, its writes are carried out in their order, and its hooks are due.
-/

namespace Workboard

namespace OutboxStore

variable {β : Type}

theorem tryAppend_ok {s t : OutboxStore} {tx ux : Transaction β} {records : List NewRecord}
    (h : s.tryAppend tx records = (.ok ux, t)) : ux = tx.append records := by
  unfold tryAppend at h
  split at h
  next => cases h
  next =>
    cases h
    rfl

end OutboxStore

namespace Collected

theorem records_extends {kind : String} {aggregate : Uuid} {mapper : EventMapper} {now : Instant}
    {events : List TodoEvent} {ids after : IdSupply} {rows : List NewRecord}
    (h : records kind aggregate mapper now events ids = .ok (rows, after)) : ids.Extends after := by
  induction events generalizing ids rows with
  | nil =>
    cases h
    exact .refl _
  | cons e es ih =>
    rcases hm : mapper e with err | _ | m
    · simp [records, hm] at h
    · simp only [records, hm] at h
      exact ih h
    · rcases hr : records kind aggregate mapper now es ids.fresh.2 with err | ⟨more, last⟩
      · simp [records, hm, hr] at h
      · simp only [records, hm, hr] at h
        cases h
        exact ids.extends_fresh.trans (ih hr)

theorem flush_extends {now : Instant} {cs : List Collected} {ids after : IdSupply}
    {rows : List NewRecord} (h : flush now cs ids = .ok (rows, after)) : ids.Extends after := by
  induction cs generalizing ids rows with
  | nil =>
    cases h
    exact .refl _
  | cons c cs ih =>
    rw [flush] at h
    split at h
    next => cases h
    next hr =>
      split at h
      next => cases h
      next hf =>
        cases h
        exact (records_extends hr).trans (ih hf)

end Collected

namespace Database

theorem foldl_applyWrite_outbox (writes : List StagedWrite) (db : Database) :
    (writes.foldl applyWrite db).outbox = db.outbox := by
  induction writes generalizing db with
  | nil => rfl
  | cons w ws ih =>
    rw [List.foldl_cons, ih]
    cases w <;> rfl

theorem foldl_applyWrite_ids (writes : List StagedWrite) (db : Database) :
    (writes.foldl applyWrite db).ids = db.ids := by
  induction writes generalizing db with
  | nil => rfl
  | cons w ws ih =>
    rw [List.foldl_cons, ih]
    cases w <;> rfl

theorem foldl_applyWrite_repository (writes : List StagedWrite) {db other : Database}
    (h : other.repository = db.repository) :
    (writes.foldl applyWrite other).repository = (writes.foldl applyWrite db).repository := by
  induction writes generalizing db other with
  | nil => exact h
  | cons w ws ih =>
    apply ih
    cases w with
    | row write => exact congrArg (·.apply write) h
    | label text => exact h

theorem appendAll_ids (db : Database) (tx : Transaction StagedWrite) (rows : List NewRecord) :
    (db.appendAll tx rows).2.ids = db.ids := by
  unfold appendAll
  split <;> rfl

theorem commit_ids (db : Database) (tx : Transaction StagedWrite) : (db.commit tx).2.ids = db.ids := by
  unfold commit
  split
  next => rfl
  next => rw [foldl_applyWrite_ids]

theorem appendAll_ok {db after : Database} {tx ux : Transaction StagedWrite} {rows : List NewRecord}
    (h : db.appendAll tx rows = (.ok ux, after)) : ux = tx.append rows := by
  unfold appendAll at h
  split at h
  next none_left =>
    cases h
    have nil : rows = [] := by simpa using none_left
    rw [nil, Transaction.append, List.append_nil]
  next =>
    rcases ha : db.outbox.tryAppend tx rows with ⟨r, outbox⟩
    rw [ha] at h
    cases h
    exact OutboxStore.tryAppend_ok ha

theorem commit_ok {db after : Database} {tx : Transaction StagedWrite} {writes : List StagedWrite}
    (h : db.commit tx = (.ok writes, after)) :
    writes = tx.staged ∧ after.outbox.records = db.outbox.written tx ∧
      after.repository = (tx.staged.foldl applyWrite db).repository := by
  unfold commit at h
  split at h
  next => cases h
  next hc =>
    cases h
    obtain ⟨rfl, records⟩ := OutboxStore.tryCommit_ok hc
    refine ⟨rfl, ?_, foldl_applyWrite_repository _ rfl⟩
    rw [foldl_applyWrite_outbox]
    exact records

end Database

namespace Work

variable {σ η ε α : Type}

theorem run_extends (work : Work σ η ε α) {ids : IdSupply} {p : Progress σ η}
    (h : ids.Extends p.db.ids) : ids.Extends (work.run p).2.db.ids := by
  have keep {p : Progress σ η} (h : ids.Extends p.db.ids)
      (r : Except OutboxError (Transaction StagedWrite) × OutboxStore) :
      ids.Extends (p.keep r).2.db.ids := by
    obtain ⟨_ | tx, store⟩ := r <;> exact h
  induction work generalizing p with
  | done ending => exact h
  | look next ih => exact ih _ h
  | note notes next ih => exact ih h
  | freshId next ih => exact ih _ (h.trans p.db.ids.extends_fresh)
  | find id next ih => exact ih _ h
  | collect mapper t next ih => exact ih _ h
  | stage write next ih => exact ih h
  | append records next ih => exact ih _ (keep h _)
  | fetch limit next ih => exact ih _ h
  | markProcessed id next ih => exact ih _ (keep h _)
  | markFailed id error next ih => exact ih _ (keep h _)
  | afterCommit hook next ih => exact ih h
  | counts next ih => exact ih _ _ h
  | cancel next ih =>
    simp only [run]
    split <;> exact ih h
  | sleep ms next ih =>
    simp only [run]
    split
    · exact h
    · exact ih h

section

variable {work : Work σ η ε α} {lift : UnitOfWorkError → ε} {db : Database} {token : CancelToken}
  {watched : Bool} {clock : Nat} {notes : σ}

theorem Ends.extends {outcome : Outcome ε α} {p : Progress σ η}
    (h : work.Ends db token watched clock notes outcome p) : db.ids.Extends p.db.ids := by
  obtain ⟨begun, ⟨_, passed, _, outbox, _, rfl⟩, hr⟩ := h
  let first : Progress σ η := ⟨{ db with outbox := outbox }, .empty, token, watched, clock, notes⟩
  have drawn := run_extends work (show db.ids.Extends first.db.ids from .refl _)
  rwa [hr] at drawn

theorem conclude_returned {v value : α} {p : Progress σ η}
    (h : (conclude lift v p : Executed σ η ε α).ending = .returned value) :
    v = value ∧ ∃ rows ids tx after writes final,
      Collected.flush p.db.now p.scope.collected p.db.ids = .ok (rows, ids) ∧
      { p.db with ids := ids }.appendAll p.scope.tx rows = (.ok tx, after) ∧
      after.commit tx = (.ok writes, final) ∧
      conclude lift v p = ⟨.returned v, final, writes, p.scope.hooks, p.clock, p.notes⟩ := by
  rcases hf : Collected.flush p.db.now p.scope.collected p.db.ids with err | ⟨rows, ids⟩
  · simp [conclude, hf] at h
  rcases ha : { p.db with ids := ids }.appendAll p.scope.tx rows with ⟨e | tx, after⟩
  · simp [conclude, hf, ha] at h
  cases hc : p.token.cancelled with
  | true => simp [conclude, hf, ha, hc] at h
  | false =>
    rcases ht : after.commit tx with ⟨e | writes, final⟩
    · simp [conclude, hf, ha, hc, ht] at h
    · have done : conclude lift v p =
          (⟨.returned v, final, writes, p.scope.hooks, p.clock, p.notes⟩ : Executed σ η ε α) := by
        simp [conclude, hf, ha, hc, ht]
      rw [done] at h
      cases h
      exact ⟨rfl, rows, ids, tx, after, writes, final, rfl, ha, ht, done⟩

theorem ends_of_returned {value : α}
    (h : (work.execute lift db token watched clock notes).ending = .returned value) :
    ∃ p, work.Ends db token watched clock notes (.ended (.returned value)) p := by
  rcases work.ends_or_stops lift db token watched clock notes with ⟨outcome, p, ends⟩ | ⟨stop, stops, -⟩
  · rw [execute_of_ends ends] at h
    match outcome with
    | .cancelled => cases h
    | .ended (.failed e) => cases h
    | .ended (.panicked m) => cases h
    | .ended (.returned v) =>
      obtain ⟨rfl, -⟩ := conclude_returned h
      exact ⟨p, ends⟩
  · have told := (execute_of_stopsAt lift stops).1
    rw [h] at told
    cases stop <;> cases told

/-- What a commit has done that took effect: the rows in the outbox, the stored to-dos, and what is told of
it. -/
structure Committed (db : Database) (p : Progress σ η) (rows : List NewRecord)
    (x : Executed σ η ε α) : Prop where
  records : x.db.outbox.records =
    p.scope.tx.updates.foldl RowUpdate.apply
      (db.outbox.records ++ (p.scope.tx.appended ++ rows).map .ofNew)
  repository : x.db.repository = (p.scope.tx.staged.foldl Database.applyWrite db).repository
  writes : x.writes = p.scope.tx.staged
  hooks : x.hooks = p.scope.hooks

/-- An execution that returns a value has come to the end of its work and has committed. -/
theorem execute_returned {value : α}
    (h : (work.execute lift db token watched clock notes).ending = .returned value) :
    ∃ p rows, work.Ends db token watched clock notes (.ended (.returned value)) p ∧
      Collected.flush p.db.now p.scope.collected p.db.ids =
        .ok (rows, (work.execute lift db token watched clock notes).db.ids) ∧
      Committed db p rows (work.execute lift db token watched clock notes) := by
  obtain ⟨p, ends⟩ := ends_of_returned h
  rw [execute_of_ends ends] at h ⊢
  obtain ⟨-, rows, ids, tx, after, writes, final, hf, ha, ht, done⟩ := conclude_returned h
  obtain rfl := Database.appendAll_ok ha
  obtain ⟨rfl, records, repository⟩ := Database.commit_ok ht
  have drawn : final.ids = ids := by
    have first := Database.appendAll_ids { p.db with ids := ids } p.scope.tx rows
    have last := after.commit_ids (p.scope.tx.append rows)
    rw [ha] at first
    rw [ht] at last
    exact last.trans first
  have appended : db.Clean after _ :=
    (ends.clean.appends ha).2 _ rfl
  refine ⟨p, rows, ends, ?_, ?_⟩
  · show _ = Except.ok (rows, (conclude lift value p).db.ids)
    rw [done, hf, ← drawn]
  · show Committed db p rows (conclude lift value p)
    rw [done]
    refine ⟨?_, ?_, rfl, rfl⟩
    · rw [← appended.records]
      exact records
    · exact repository.trans (Database.foldl_applyWrite_repository _ appended.repository)

theorem conclude_extends (value : α) (p : Progress σ η) :
    p.db.ids.Extends (conclude lift value p : Executed σ η ε α).db.ids := by
  rcases hf : Collected.flush p.db.now p.scope.collected p.db.ids with err | ⟨rows, ids⟩
  · simp only [conclude, hf]
    exact .refl _
  have drawn : p.db.ids.Extends ids := Collected.flush_extends hf
  have first := Database.appendAll_ids { p.db with ids := ids } p.scope.tx rows
  rcases ha : { p.db with ids := ids }.appendAll p.scope.tx rows with ⟨e | tx, after⟩
  · rw [ha] at first
    simp only [conclude, hf, ha]
    exact first ▸ drawn
  · rw [ha] at first
    have last := after.commit_ids tx
    cases hc : p.token.cancelled with
    | true =>
      simp only [conclude, hf, ha, hc, if_true]
      exact first ▸ drawn
    | false =>
      rcases ht : after.commit tx with ⟨e | writes, final⟩ <;> rw [ht] at last <;>
        simp only [conclude, hf, ha, hc, ht, Bool.false_eq_true, if_false] <;>
        exact (last.trans first) ▸ drawn

theorem execute_extends (work : Work σ η ε α) (lift : UnitOfWorkError → ε) (db : Database)
    (token : CancelToken) (watched : Bool) (clock : Nat) (notes : σ) :
    db.ids.Extends (work.execute lift db token watched clock notes).db.ids := by
  rcases work.ends_or_stops lift db token watched clock notes with ⟨outcome, p, ends⟩ | ⟨_, _, same⟩
  · rw [execute_of_ends ends]
    match outcome with
    | .cancelled => exact ends.extends
    | .ended (.failed e) => exact ends.extends
    | .ended (.panicked m) => exact ends.extends
    | .ended (.returned value) => exact ends.extends.trans (conclude_extends value p)
  · rw [same]
    exact .refl _

end

end Work

end Workboard
