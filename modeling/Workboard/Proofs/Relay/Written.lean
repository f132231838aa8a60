import Workboard.Proofs.Relay.Refusal

/-!
What a relay writes to the outbox, whatever handlers answer and whichever calls fail. A batch leaves the rows as
they are or marks them by its turns; what was written of a row at first stays.
-/

namespace Workboard

variable {σ γ : Type}

/-- Handlers that leave the rows of the outbox alone. -/
def Relay.LeavesRows (relay : Relay σ γ) : Prop :=
  ∀ handler r w, (relay.handle handler r w).2.store.records = w.store.records

namespace Batch

variable {relay : Relay σ γ} {b c : Batch} {r : OutboxRecord} {w v : RelayWorld σ} {t : Turn}

theorem mark_records {tx : Transaction Empty} {answer : Except OutboxError (Transaction Empty) × OutboxStore}
    (quiet : w.store.Quiet tx answer) (outcome : RowOutcome) (goOn : Transaction Empty → Batch) :
    (mark w answer outcome goOn).2.store.records = w.store.records := by
  rcases answer with ⟨e | ux, store⟩ <;> exact quiet.records

/-- A turn leaves the rows as they are. -/
theorem next_records (leaves : relay.LeavesRows) (b : Batch) (r : OutboxRecord) (w : RelayWorld σ) :
    (b.next relay r w).2.2.store.records = w.store.records := by
  unfold next
  split
  next => rfl
  next => exact mark_records (w.store.quiet_tryMark b.tx (.processed r.id relay.now)) _ _
  next handler _ =>
    have kept := leaves handler r w
    rcases handled : relay.handle handler r w with ⟨d, v⟩
    rw [handled] at kept
    simp only [settle]
    split
    next => exact (mark_records (v.store.quiet_tryMark b.tx (.processed r.id relay.now)) _ _).trans kept
    next => exact (mark_records (v.store.quiet_tryMark b.tx (.failed r.id _)) _ _).trans kept

/-- What a turn adds to the transaction is its mark. -/
theorem next_tx (h : b.next relay r w = (t, .ok c, v)) :
    c.tx = { b.tx with updates := b.tx.updates ++ (t.update relay.now r).toList } := by
  rcases plan_cases relay.registry b r with ⟨-, plan⟩ | ⟨-, -, plan⟩ | ⟨-, handler, -, plan⟩
  · simp only [next, plan] at h
    cases h
    simp [Turn.update, defer]
  · simp only [next, plan, skip, Prod.mk.injEq] at h
    obtain ⟨rfl, h⟩ := h
    obtain ⟨ux, store, marked, rfl⟩ := mark_ok h
    exact (OutboxStore.tryMark_ok marked).2
  · simp only [next, plan, settle, Prod.mk.injEq] at h
    obtain ⟨rfl, h⟩ := h
    split at h
    next text =>
      obtain ⟨ux, store, marked, rfl⟩ := mark_ok h
      simp only [Turn.update, text]
      exact (OutboxStore.tryMark_ok marked).2
    next text =>
      obtain ⟨ux, store, marked, rfl⟩ := mark_ok h
      simp only [Turn.update, text]
      exact (OutboxStore.tryMark_ok marked).2

theorem deliver_records (leaves : relay.LeavesRows) (rows : List OutboxRecord) (b : Batch) (w : RelayWorld σ) :
    (b.deliver relay rows w).2.2.store.records = w.store.records := by
  induction rows generalizing b w with
  | nil => rfl
  | cons r rows ih =>
    have kept := next_records leaves b r w
    rcases turn : b.next relay r w with ⟨t, e | c, v⟩ <;> rw [turn] at kept
    · rw [deliver_cons_error turn]
      exact kept
    · rw [deliver_cons_ok turn]
      exact (ih c v).trans kept

theorem deliver_tx (rows : List OutboxRecord) {b c : Batch} {w v : RelayWorld σ} {turns : List (OutboxRecord × Turn)}
    (h : b.deliver relay rows w = (turns, .ok c, v)) :
    c.tx = { b.tx with updates := b.tx.updates ++ turns.filterMap fun e => e.2.update relay.now e.1 } := by
  induction rows generalizing b w turns with
  | nil =>
    cases h
    simp
  | cons r rows ih =>
    rcases turn : b.next relay r w with ⟨t, e | d, u⟩
    · rw [deliver_cons_error turn] at h
      cases h
    · rw [deliver_cons_ok turn] at h
      rcases rest : d.deliver relay rows u with ⟨later, answer, x⟩
      rw [rest] at h
      cases h
      rw [ih rest, next_tx turn]
      cases mark : t.update relay.now r <;> simp [mark]

/-- A row is skipped only where no handler wants it. -/
theorem deliver_skipped (rows : List OutboxRecord) {b : Batch} {w : RelayWorld σ}
    (h : (r, .skipped) ∈ (b.deliver relay rows w).1) : relay.registry.get? r.eventType = none := by
  induction rows generalizing b w with
  | nil => cases h
  | cons x rows ih =>
    have first : ∀ {e}, b.next relay x w = (.skipped, e) → relay.registry.get? x.eventType = none := by
      intro e turn
      rcases plan_cases relay.registry b x with ⟨-, plan⟩ | ⟨-, unwanted, -⟩ | ⟨-, handler, -, plan⟩
      · simp [next, plan] at turn
      · exact unwanted
      · simp [next, plan] at turn
    rcases turn : b.next relay x w with ⟨t, e | d, u⟩
    · rw [deliver_cons_error turn] at h
      cases List.mem_singleton.mp h
      exact first turn
    · rw [deliver_cons_ok turn] at h
      rcases List.mem_cons.mp h with own | later
      · cases own
        exact first turn
      · exact ih later

end Batch

namespace Relay

variable {relay : Relay σ γ} {w v : RelayWorld σ} {turns : List (OutboxRecord × Turn)}

theorem begin_writes (relay : Relay σ γ) (s : OutboxStore) :
    (relay.begin s).2.records = s.records ∧
      ∀ rows b, (relay.begin s).1 = .ok (rows, b) → b.tx.updates = [] ∧ b.tx.appended = [] := by
  rcases h1 : s.strike .beginPanic with ⟨_ | _, s1⟩
  rcases h2 : s1.strike .begin with ⟨_ | _, s2⟩
  have records := (OutboxStore.of_strike h2).1.trans (OutboxStore.of_strike h1).1
  have fetched := OutboxStore.tryFetch_records s2 (.empty : Transaction Empty) relay.batchSize
  rcases hf : s2.tryFetch (.empty : Transaction Empty) relay.batchSize with ⟨e | rows, t, tx⟩ <;> rw [hf] at fetched
  · simp only [begin, h1, h2, hf]
    exact ⟨(OutboxStore.of_strike rfl).1.trans (fetched.trans records), by simp⟩
  · simp only [begin, h1, h2, hf]
    refine ⟨fetched.trans records, ?_⟩
    rintro _ _ ⟨⟩
    unfold OutboxStore.tryFetch at hf
    split at hf <;> cases hf
    exact ⟨rfl, rfl⟩
  · simp only [begin, h1, h2]
    exact ⟨(OutboxStore.of_strike h2).1.trans (OutboxStore.of_strike h1).1, by simp⟩
  · simp only [begin, h1]
    exact ⟨(OutboxStore.of_strike h1).1, by simp⟩

theorem runBatch_of_begin {rows : List OutboxRecord} {b : Batch} {s : OutboxStore}
    (h : relay.begin w.store = (.ok (rows, b), s)) :
    (relay.runBatch w).1 = (b.deliver relay rows { w with store := s }).1 ∧
      (relay.runBatch w).2.2.state = (b.deliver relay rows { w with store := s }).2.2.state := by
  unfold runBatch
  rw [h]
  rcases delivered : b.deliver relay rows { w with store := s } with ⟨turns, e | c, v⟩
  · simp [delivered]
  · rcases ended : v.store.tryCommit c.tx with ⟨e | writes, t⟩ <;> simp [delivered, ended]

/-- Rows have turns that are in the outbox, and one is skipped only where no handler wants it. -/
theorem runBatch_rows {e : OutboxRecord × Turn} (h : e ∈ (relay.runBatch w).1) :
    e.1 ∈ w.store.records ∧ (e.2 = .skipped → relay.registry.get? e.1.eventType = none) := by
  have taken := relay.begin_takes w.store
  rcases begun : relay.begin w.store with ⟨error | ⟨rows, b⟩, s⟩ <;> rw [begun] at taken
  · simp [runBatch, begun] at h
  · rw [(runBatch_of_begin begun).1] at h
    obtain ⟨rows_eq, -, -⟩ := taken
    have row := (Batch.deliver_rows relay rows b { w with store := s }).subset (List.mem_map_of_mem h)
    rw [rows_eq] at row
    refine ⟨(OutboxStore.mem_available.mp (List.mem_of_mem_take row)).1, fun skipped => ?_⟩
    obtain ⟨r, t⟩ := e
    subst skipped
    exact Batch.deliver_skipped rows h

/-- A batch that succeeds has begun, has given each row its turn, and has committed. -/
theorem runBatch_ok {report : BatchReport} (ran : relay.runBatch w = (turns, .ok report, v)) :
    ∃ rows b s c u writes, relay.begin w.store = (.ok (rows, b), s) ∧
      b.deliver relay rows { w with store := s } = (turns, .ok c, u) ∧
      u.store.tryCommit c.tx = (.ok writes, v.store) ∧ report = c.report := by
  unfold runBatch at ran
  rcases begun : relay.begin w.store with ⟨e | ⟨rows, b⟩, s⟩ <;> rw [begun] at ran
  · cases ran
  rcases delivered : b.deliver relay rows { w with store := s } with ⟨turns, e | c, u⟩
  · simp [delivered] at ran
  rcases ended : u.store.tryCommit c.tx with ⟨e | writes, t⟩
  · simp [delivered, ended] at ran
  · simp only [delivered, ended] at ran
    cases ran
    exact ⟨rows, b, s, c, u, writes, rfl, delivered, ended, rfl⟩

theorem runBatch_error (leaves : relay.LeavesRows) {e : BatchError} (ran : (relay.runBatch w).2.1 = .error e) :
    (relay.runBatch w).2.2.store.records = w.store.records := by
  have begins := (relay.begin_writes w.store).1
  unfold runBatch at ran ⊢
  rcases begun : relay.begin w.store with ⟨e | ⟨rows, b⟩, s⟩ <;> rw [begun] at ran begins
  · simpa [begun] using begins
  have delivers := Batch.deliver_records leaves rows b { w with store := s }
  rcases delivered : b.deliver relay rows { w with store := s } with ⟨turns, e | c, u⟩ <;> rw [delivered] at delivers
  · simpa [begun, delivered] using delivers.trans begins
  rcases ended : u.store.tryCommit c.tx with ⟨e | writes, t⟩
  · have ends := (OutboxStore.tryCommit_error ended).1
    simpa [begun, delivered, ended] using ends.trans (delivers.trans begins)
  · simp [delivered, ended] at ran

/-- A batch marks rows by its turns, or leaves all as they are. -/
theorem runBatch_writes (relay : Relay σ γ) (leaves : relay.LeavesRows) (w : RelayWorld σ) :
    ∃ updates : List RowUpdate, (relay.runBatch w).2.2.store.records = updates.foldl RowUpdate.apply w.store.records ∧
      ∀ u ∈ updates, ∃ e ∈ (relay.runBatch w).1, e.2.update relay.now e.1 = some u := by
  rcases ran : relay.runBatch w with ⟨turns, e | report, v⟩
  · have failed : (relay.runBatch w).2.1 = .error e := by rw [ran]
    have kept := runBatch_error leaves failed
    rw [ran] at kept
    exact ⟨[], kept, by simp⟩
  · obtain ⟨rows, b, s, c, u, writes, begun, delivered, committed, -⟩ := runBatch_ok ran
    obtain ⟨records, fresh⟩ := relay.begin_writes w.store
    have kept := Batch.deliver_records leaves rows b { w with store := s }
    have tx := Batch.deliver_tx rows delivered
    have written := (OutboxStore.tryCommit_ok committed).2
    rw [begun] at records fresh
    rw [delivered] at kept
    obtain ⟨updates, appended⟩ := fresh rows b rfl
    refine ⟨c.tx.updates, ?_, fun u mem => ?_⟩
    · rw [written, OutboxStore.written, tx, appended, kept.trans records]
      simp
    · rw [tx, updates] at mem
      exact List.mem_filterMap.mp (by simpa using mem)

/-- What was written of rows stays, and new rows come behind. -/
theorem after_written (leaves : relay.LeavesRows) (w : RelayWorld σ) (e : RelayEvent σ) :
    w.store.records.map (·.toNewRecord) <+: (relay.after w e).store.records.map (·.toNewRecord) := by
  cases e with
  | batch now =>
    obtain ⟨updates, records, -⟩ := runBatch_writes (relay.at_ now) leaves w
    show _ <+: ((relay.at_ now).runBatch w).2.2.store.records.map _
    have same := OutboxStore.foldl_apply_written updates w.store.records
    exact records ▸ same ▸ List.prefix_rfl
  | append records =>
    show _ <+: (w.store.commit (Transaction.empty.append records)).2.records.map _
    unfold OutboxStore.commit
    split
    · exact List.prefix_rfl
    · exact ⟨records, by simp [OutboxStore.written, Transaction.append, Transaction.empty, OutboxRecord.ofNew,
        Function.comp_def]⟩
  | _ => exact List.prefix_rfl

theorem run_written (leaves : relay.LeavesRows) (w : RelayWorld σ) (history : List (RelayEvent σ)) :
    w.store.records.map (·.toNewRecord) <+: (relay.run w history).store.records.map (·.toNewRecord) := by
  induction history generalizing w with
  | nil => exact List.prefix_rfl
  | cons e history ih => exact (after_written leaves w e).trans (ih (relay.after w e))

/-- A row gets done with in a batch, by a turn that is done with it. -/
theorem processed_of_after (leaves : relay.LeavesRows) {e : RelayEvent σ}
    (distinct : (w.store.records.map (·.id)).Nodup) {r : OutboxRecord} (hr : r ∈ (relay.after w e).store.records)
    (done : r.processedAt ≠ none) :
    (∃ q ∈ w.store.records, q.id = r.id ∧ q.processedAt ≠ none) ∨
      ∃ now, e = .batch now ∧ ∃ turn ∈ ((relay.at_ now).runBatch w).1, turn.2.Done ∧
        turn.1.toNewRecord = r.toNewRecord := by
  cases e with
  | batch now =>
    obtain ⟨updates, records, turns⟩ := runBatch_writes (relay.at_ now) leaves w
    obtain ⟨q, hq, rfl⟩ : ∃ q ∈ w.store.records, q.marked updates = r := by
      rw [← List.mem_map, ← OutboxStore.foldl_apply_eq_map distinct, ← records]
      exact hr
    by_cases waits : q.processedAt = none
    · obtain ⟨at_, marked⟩ : ∃ at_, RowUpdate.processed q.id at_ ∈ updates := by
        simpa [OutboxRecord.marked_waits, waits] using done
      obtain ⟨turn, mem, mark⟩ := turns _ marked
      obtain ⟨finished, same, -⟩ := Turn.update_processed.mp mark
      obtain rfl := List.inj_on_of_nodup_map distinct hq (runBatch_rows mem).1 same
      exact .inr ⟨now, rfl, turn, mem, finished, (OutboxRecord.marked_written updates _).symm⟩
    · exact .inl ⟨q, hq, (congrArg NewRecord.id (OutboxRecord.marked_written updates q)).symm, waits⟩
  | append records =>
    have appended : r ∈ w.store.records ++ records.map OutboxRecord.ofNew := by
      change r ∈ (w.store.commit (Transaction.empty.append records)).2.records at hr
      unfold OutboxStore.commit at hr
      split at hr
      · exact List.mem_append_left _ hr
      · simpa [OutboxStore.written, Transaction.append, Transaction.empty] using hr
    rcases List.mem_append.mp appended with old | new
    · exact .inl ⟨r, old, rfl, done⟩
    · obtain ⟨written, -, rfl⟩ := List.mem_map.mp new
      exact absurd rfl done
  | _ => exact .inl ⟨r, hr, rfl, done⟩

end Relay

end Workboard
