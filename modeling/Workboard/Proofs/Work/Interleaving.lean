import Workboard.Proofs.Work.Atomicity
import Workboard.Work.Interleaving

/-!
Steps make up runs: an execution that no other comes between does what it would do by itself.
-/

namespace Workboard

variable {σ η ε α : Type}

namespace Work

theorem run_eq_step (work : Work σ η ε α) (p : Progress σ η) :
    work.run p =
      match work.step p with
      | (.inl outcome, q) => (outcome, q)
      | (.inr next, q) => next.run q := by
  cases work with
  | sleep ms next =>
    simp only [run, step]
    cases p.token.breakOff? p.clock ms <;> rfl
  | _ => rfl

/-- A step leaves an execution that cannot be cancelled as it is, but for its scope and the time it has slept. -/
theorem step_progress {work next : Work σ η ε α} {p q : Progress σ η} (token : p.token = .never)
    (unwatched : p.watched = false) (h : work.step p = (.inr next, q)) : q.token = .never ∧ q.watched = false := by
  have kept (r : Except OutboxError (Transaction StagedWrite) × OutboxStore) :
      (p.keep r).2.token = .never ∧ (p.keep r).2.watched = false := by
    obtain ⟨e | tx, outbox⟩ := r <;> exact ⟨token, unwatched⟩
  cases work with
  | done ending => cases h
  | append records next => cases h; exact kept _
  | markProcessed id next => cases h; exact kept _
  | markFailed id error next => cases h; exact kept _
  | cancel next =>
    simp only [step, unwatched] at h
    cases h
    exact ⟨token, unwatched⟩
  | sleep ms next =>
    simp only [step] at h
    split at h
    · cases h
    · cases h
      exact ⟨token, unwatched⟩
  | _ => cases h; exact ⟨token, unwatched⟩

end Work

namespace WorkWorld

variable {lift : UnitOfWorkError → ε} {w : WorkWorld σ η ε α} {n : Nat}

theorem after_step (lift : UnitOfWorkError → ε) {phase : WorkPhase σ η ε α} (here : w.executions[n]? = some phase) :
    w.after lift (.step n) = w.act lift n phase := by
  rw [after, here]

theorem act_working {work next : Work σ η ε α} {scope : Scope η} {clock : Nat} {p : Progress σ η}
    (stepped : work.step (w.progress scope clock) = (.inr next, p)) :
    w.act lift n (.working work scope clock) =
      ⟨p.db, p.notes, w.executions.set n (.working next p.scope p.clock)⟩ := by
  rw [act, stepped]

/-- The steps of an execution, when no others come between them, end it as the whole run of its work would. -/
def EndsAlone (lift : UnitOfWorkError → ε) (n : Nat) (work : Work σ η ε α) : Prop :=
  ∀ (w : WorkWorld σ η ε α) (scope : Scope η) (clock : Nat),
    w.executions[n]? = some (.working work scope clock) →
      ∃ k, w.run lift (List.replicate k (.step n)) =
        w.ends n (Work.finish lift (work.run (w.progress scope clock)).1 (work.run (w.progress scope clock)).2)

theorem endsAlone_of_step {work : Work σ η ε α}
    (rest : ∀ p next q, work.step p = (.inr next, q) → EndsAlone lift n next) : EndsAlone lift n work := by
  intro w scope clock here
  have first := after_step lift here
  rw [Work.run_eq_step]
  rcases stepped : work.step (w.progress scope clock) with ⟨outcome | next, p⟩
  · refine ⟨1, ?_⟩
    rw [act, stepped] at first
    exact first
  · rw [act_working stepped] at first
    let moved : WorkWorld σ η ε α := ⟨p.db, p.notes, w.executions.set n (.working next p.scope p.clock)⟩
    have inside : n < w.executions.length := (List.getElem?_eq_some_iff.mp here).1
    have there : moved.executions[n]? = some (.working next p.scope p.clock) := by
      simp [moved, inside]
    have same : moved.progress p.scope p.clock = p := by
      obtain ⟨token, unwatched⟩ := Work.step_progress rfl rfl stepped
      obtain ⟨db, scope, _, _, clock, notes⟩ := p
      cases token
      cases unwatched
      rfl
    obtain ⟨k, ran⟩ := rest _ _ _ stepped moved p.scope p.clock there
    rw [same] at ran
    refine ⟨k + 1, ?_⟩
    rw [List.replicate_succ]
    show (w.after lift (.step n)).run lift (List.replicate k (.step n)) = _
    rw [first, ran]
    simp [ends, moved]

theorem endsAlone (lift : UnitOfWorkError → ε) (work : Work σ η ε α) : EndsAlone lift n work := by
  induction work with
  | done ending => exact endsAlone_of_step (by rintro p next q ⟨⟩)
  | look next ih => exact endsAlone_of_step (by rintro p _ q ⟨⟩; exact ih _)
  | note notes next ih => exact endsAlone_of_step (by rintro p _ q ⟨⟩; exact ih)
  | freshId next ih => exact endsAlone_of_step (by rintro p _ q ⟨⟩; exact ih _)
  | find id next ih => exact endsAlone_of_step (by rintro p _ q ⟨⟩; exact ih _)
  | collect mapper t next ih => exact endsAlone_of_step (by rintro p _ q ⟨⟩; exact ih _)
  | stage write next ih => exact endsAlone_of_step (by rintro p _ q ⟨⟩; exact ih)
  | append records next ih => exact endsAlone_of_step (by rintro p _ q ⟨⟩; exact ih _)
  | fetch limit next ih => exact endsAlone_of_step (by rintro p _ q ⟨⟩; exact ih _)
  | markProcessed id next ih => exact endsAlone_of_step (by rintro p _ q ⟨⟩; exact ih _)
  | markFailed id error next ih => exact endsAlone_of_step (by rintro p _ q ⟨⟩; exact ih _)
  | afterCommit hook next ih => exact endsAlone_of_step (by rintro p _ q ⟨⟩; exact ih)
  | counts next ih => exact endsAlone_of_step (by rintro p _ q ⟨⟩; exact ih _ _)
  | cancel next ih => exact endsAlone_of_step (by rintro p _ q ⟨⟩; exact ih)
  | sleep ms next ih =>
    refine endsAlone_of_step fun p rest q stepped => ?_
    simp only [Work.step] at stepped
    split at stepped <;> cases stepped
    exact ih

/-- An execution that no other comes between does what its work does by itself. -/
theorem run_alone (work : Work σ η ε α) (here : w.executions[n]? = some (.waiting work)) :
    ∃ k, w.run lift (List.replicate k (.step n)) = w.ends n (work.execute lift w.db .never false 0 w.notes) := by
  have first := after_step lift here
  rcases panicked : w.db.outbox.strike .beginPanic with ⟨_ | _, passed⟩
  case true =>
    refine ⟨1, first.trans ?_⟩
    simp only [act, Work.execute, panicked, CancelToken.never, Bool.false_eq_true, if_false]
  rcases refused : passed.strike .begin with ⟨_ | _, outbox⟩
  case true =>
    refine ⟨1, first.trans ?_⟩
    simp only [act, Work.execute, panicked, refused, CancelToken.never, Bool.false_eq_true, if_false]
  have whole : work.execute lift w.db .never false 0 w.notes = _ :=
    Work.execute_of_ends ⟨_, ⟨rfl, passed, panicked, outbox, refused, rfl⟩, rfl⟩
  simp only [act, panicked, refused] at first
  let begun : WorkWorld σ η ε α :=
    { w with db := { w.db with outbox := outbox }, executions := w.executions.set n (.working work .empty 0) }
  have inside : n < w.executions.length := (List.getElem?_eq_some_iff.mp here).1
  have there : begun.executions[n]? = some (.working work .empty 0) := by
    simp [begun, inside]
  obtain ⟨k, ran⟩ := endsAlone lift work begun .empty 0 there
  refine ⟨k + 1, ?_⟩
  rw [List.replicate_succ, whole]
  show (w.after lift (.step n)).run lift (List.replicate k (.step n)) = _
  rw [first, ran]
  simp [ends, begun, progress]

end WorkWorld

end Workboard
