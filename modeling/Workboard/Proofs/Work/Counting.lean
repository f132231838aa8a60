import Workboard.Proofs.Work.Looking

/-!
How often queries were counted makes no difference to work: its execution ends alike and stores the same.
-/

namespace Workboard

variable {σ η ε α : Type}

def Repository.withReads (r : Repository) (n : Nat) : Repository := { r with reads := n }

def Database.withReads (db : Database) (n : Nat) : Database := { db with repository := db.repository.withReads n }

def Progress.withReads (p : Progress σ η) (n : Nat) : Progress σ η := { p with db := p.db.withReads n }

def Executed.withReads (x : Executed σ η ε α) (n : Nat) : Executed σ η ε α := { x with db := x.db.withReads n }

namespace Database

variable {db : Database} {tx : Transaction StagedWrite}

theorem applyWrite_withReads (db : Database) (write : StagedWrite) (n : Nat) :
    (db.withReads n).applyWrite write = (db.applyWrite write).withReads n := by
  rcases write with (put | remove) | label <;> rfl

theorem foldl_applyWrite_withReads (writes : List StagedWrite) (db : Database) (n : Nat) :
    writes.foldl applyWrite (db.withReads n) = (writes.foldl applyWrite db).withReads n := by
  induction writes generalizing db with
  | nil => rfl
  | cons write writes ih => rw [List.foldl_cons, List.foldl_cons, applyWrite_withReads, ih]

theorem appendAll_withReads (db : Database) (n : Nat) (tx : Transaction StagedWrite) (rows : List NewRecord) :
    (db.withReads n).appendAll tx rows = ((db.appendAll tx rows).1, (db.appendAll tx rows).2.withReads n) := by
  unfold appendAll
  split <;> rfl

theorem commit_withReads (db : Database) (n : Nat) (tx : Transaction StagedWrite) :
    (db.withReads n).commit tx = ((db.commit tx).1, (db.commit tx).2.withReads n) := by
  unfold commit
  dsimp only [withReads]
  split
  next => rfl
  next writes outbox _ => exact congrArg _ (foldl_applyWrite_withReads writes { db with outbox := outbox } n)

end Database

theorem keep_withReads (p : Progress σ η) (n : Nat)
    (r : Except OutboxError (Transaction StagedWrite) × OutboxStore) :
    (p.withReads n).keep r = ((p.keep r).1, (p.keep r).2.withReads n) := by
  obtain ⟨e | tx, outbox⟩ := r <;> rfl

namespace Work

theorem run_withReads (work : Work σ η ε α) (p : Progress σ η) (n : Nat) :
    work.run (p.withReads n) = ((work.run p).1, (work.run p).2.withReads n) := by
  induction work generalizing p with
  | done ending => rfl
  | look next ih => exact ih _ _
  | note notes next ih => exact ih { p with notes := notes }
  | freshId next ih => exact ih _ { p with db := { p.db with ids := p.db.ids.fresh.2 } }
  | find id next ih => exact ih _ _
  | collect mapper t next ih => exact ih _ { p with scope := (p.scope.collect mapper t).2 }
  | stage write next ih => exact ih { p with scope := p.scope.stage write }
  | append records next ih =>
    simp only [run]
    exact (congrArg (fun kept => (next kept.1).run kept.2) (keep_withReads p n _)).trans (ih _ _)
  | fetch limit next ih => exact ih _ { p with
      db := { p.db with outbox := (p.db.outbox.tryFetch p.scope.tx limit).2.1 }
      scope := { p.scope with tx := (p.db.outbox.tryFetch p.scope.tx limit).2.2 } }
  | markProcessed id next ih =>
    simp only [run]
    exact (congrArg (fun kept => (next kept.1).run kept.2) (keep_withReads p n _)).trans (ih _ _)
  | markFailed id error next ih =>
    simp only [run]
    exact (congrArg (fun kept => (next kept.1).run kept.2) (keep_withReads p n _)).trans (ih _ _)
  | afterCommit hook next ih => exact ih { p with scope := p.scope.afterCommit hook }
  | counts next ih => exact ih _ _ _
  | cancel next ih =>
    let stop (p : Progress σ η) : Progress σ η :=
      if p.watched then { p with token := { p.token with cancelled := true } } else p
    have same : stop (p.withReads n) = (stop p).withReads n := by
      show (if p.watched = true then _ else _) = (if p.watched = true then _ else _ : Progress σ η).withReads n
      split <;> rfl
    exact (congrArg next.run same).trans (ih (stop p))
  | sleep ms next ih =>
    have same : (p.withReads n).token.breakOff? (p.withReads n).clock ms = p.token.breakOff? p.clock ms := rfl
    simp only [run, same]
    cases p.token.breakOff? p.clock ms with
    | none => exact ih { p with clock := p.clock + ms }
    | some t => rfl

theorem conclude_withReads (lift : UnitOfWorkError → ε) (value : α) (p : Progress σ η) (n : Nat) :
    conclude lift value (p.withReads n) = (conclude lift value p).withReads n := by
  obtain ⟨⟨outbox, repository, ids, now⟩, scope, token, watched, clock, notes⟩ := p
  simp only [conclude, Progress.withReads, Database.withReads]
  rcases Collected.flush now scope.collected ids with e | ⟨records, drawn⟩
  · rfl
  have appends := Database.appendAll_withReads ⟨outbox, repository, drawn, now⟩ n scope.tx records
  rcases appended : Database.appendAll ⟨outbox, repository, drawn, now⟩ scope.tx records with ⟨e | tx, after⟩ <;>
    rw [appended, Database.withReads] at appends
  · simp only [appends, appended]
    rfl
  · by_cases stopped : token.cancelled = true
    · simp only [appends, appended, stopped, if_true]
      rfl
    · have commits := after.commit_withReads n tx
      rcases committed : after.commit tx with ⟨e | writes, final⟩ <;> rw [committed] at commits
      · simp only [appends, appended, commits, committed, if_neg stopped]
        rfl
      · simp only [appends, appended, commits, committed, if_neg stopped]
        rfl

theorem finish_withReads (lift : UnitOfWorkError → ε) (outcome : Outcome ε α) (p : Progress σ η) (n : Nat) :
    finish lift outcome (p.withReads n) = (finish lift outcome p).withReads n := by
  rcases outcome with (v | e | m) | _
  · exact conclude_withReads lift v p n
  · rfl
  · rfl
  · rfl

theorem execute_withReads (work : Work σ η ε α) (lift : UnitOfWorkError → ε) (db : Database) (n : Nat)
    (token : CancelToken) (watched : Bool) (clock : Nat) (notes : σ) :
    work.execute lift (db.withReads n) token watched clock notes =
      (work.execute lift db token watched clock notes).withReads n := by
  simp only [execute, Database.withReads]
  split
  · rfl
  · split
    · rfl
    · split
      · rfl
      next outbox _ =>
        have ran := run_withReads work ⟨{ db with outbox := outbox }, .empty, token, watched, clock, notes⟩ n
        exact (congrArg (fun r => finish lift r.1 r.2) ran).trans (finish_withReads lift _ _ n)

end Work

end Workboard
