import Workboard.Proofs.Outbox.Calls
import Workboard.Proofs.Outbox.Exclusive

/-!
How the rows of an outbox change. Transactions whose steps come between each other leave the rows that they
would leave if each had been carried out alone when it committed. A row keeps its place and what was written
of it at first, and it tells what committed transactions have marked on it.
-/

namespace Workboard

/-- Rows keep their places and what was written of them at first, and none is processed twice. -/
def Evolves (rows later : List OutboxRecord) : Prop :=
  ∀ (i : Nat) (r : OutboxRecord), rows[i]? = some r → ∃ q : OutboxRecord, later[i]? = some q ∧
    q.toNewRecord = r.toNewRecord ∧ ∀ t, r.processedAt = some t → q.processedAt = some t

namespace Evolves

variable {rows later last : List OutboxRecord}

theorem refl (rows : List OutboxRecord) : Evolves rows rows := fun _ r hr => ⟨r, hr, rfl, fun _ => id⟩

theorem trans (h : Evolves rows later) (h' : Evolves later last) : Evolves rows last := by
  intro i r hr
  obtain ⟨q, hq, written, processed⟩ := h i r hr
  obtain ⟨p, hp, written', processed'⟩ := h' i q hq
  exact ⟨p, hp, written'.trans written, fun t ht => processed' t (processed t ht)⟩

theorem append (rows more : List OutboxRecord) : Evolves rows (rows ++ more) := by
  intro i r hr
  have here := (List.getElem?_eq_some_iff.mp hr).1
  exact ⟨r, (List.getElem?_append_left here).trans hr, rfl, fun _ => id⟩

theorem apply (rows : List OutboxRecord) (u : RowUpdate) : Evolves rows (u.apply rows) := by
  have keeps (p : OutboxRecord → Bool) (f : OutboxRecord → OutboxRecord)
      (same : ∀ r, (f r).toNewRecord = r.toNewRecord)
      (once : ∀ r t, r.processedAt = some t → (f r).processedAt = some t) :
      Evolves rows (modifyFirst p f rows) := by
    intro i r hr
    induction rows generalizing i with
    | nil => cases hr
    | cons q rows ih =>
      rw [modifyFirst]
      cases i with
      | zero =>
        obtain rfl : q = r := Option.some.inj hr
        split
        · exact ⟨f q, rfl, same q, once q⟩
        · exact ⟨q, rfl, rfl, fun _ => id⟩
      | succ i =>
        split
        · exact ⟨r, hr, rfl, fun _ => id⟩
        · exact ih i hr
  cases u with
  | processed id now =>
    refine keeps _ _ (fun _ => rfl) ?_
    intro r t ht
    rw [OutboxRecord.process, ht]
    rfl
  | failed id error => exact keeps _ _ (fun _ => rfl) fun _ _ kept => kept

theorem foldl_apply (updates : List RowUpdate) (rows : List OutboxRecord) :
    Evolves rows (updates.foldl RowUpdate.apply rows) := by
  induction updates generalizing rows with
  | nil => exact refl rows
  | cons u updates ih => exact (apply rows u).trans (ih _)

end Evolves

namespace OutboxSession

variable {s t : OutboxSession} {l : Ledger} {name : String} {tx : Transaction String}

theorem get?_drop (s : OutboxSession) (name other : String) :
    (s.drop name).get? other = if other = name then none else s.get? other := by
  rw [drop]
  split
  next => exact s.get?_close name other
  next free =>
    split
    next own => rw [own, free]
    next => rfl

theorem drop_records (s : OutboxSession) (name : String) : (s.drop name).store.records = s.store.records := by
  rw [drop]
  split <;> rfl

/-- Rows change by a commit that succeeds, and only by that. -/
theorem step_records (s : OutboxSession) (now : Instant) (step : SessionStep) :
    (s.step now step).2.store.records = s.store.records ∨
      ∃ name tx, step = .within name .commit ∧ s.get? name = some tx ∧
        (s.step now step).1 = .done (.ok ()) ∧
        (s.step now step).2.store.records = s.store.written tx := by
  have kept (name : String) (r : Except OutboxError (Transaction String)) :
      (s.keep name r).2.store.records = s.store.records := by
    cases r <;> rfl
  cases step with
  | begin name => exact .inl (s.drop_records name)
  | within name step =>
    rcases open_ : s.get? name with _ | tx
    · exact .inl (by simp only [OutboxSession.step, open_])
    · simp only [OutboxSession.step, open_]
      cases step with
      | commit =>
        by_cases fails : s.store.failCommits = true
        · simp only [within, OutboxStore.commit, fails, if_true]
          exact .inl rfl
        · simp only [within, OutboxStore.commit, fails]
          exact .inr ⟨name, tx, rfl, open_, rfl, rfl⟩
      | rollback => exact .inl (s.drop_records name)
      | drop => exact .inl (s.drop_records name)
      | markProcessed id => exact .inl (kept name _)
      | markFailed id error => exact .inl (kept name _)
      | _ => exact .inl rfl
  | _ => exact .inl rfl

/-- What a ledger tells of an outbox is so. -/
structure Recorded (s : OutboxSession) (l : Ledger) : Prop where
  rows : s.store.records = l.calls.foldl RowCall.perform []
  known : RowCall.Known [] l.calls
  follows : ∀ name tx, s.get? name = some tx → tx.Follows (l.opened name) s.store.records

theorem recorded_empty : empty.Recorded .empty := ⟨rfl, trivial, nofun⟩

/-- A transaction goes on or ends, and neither rows nor other transactions change. -/
theorem Recorded.put (h : s.Recorded l) (t : OutboxSession) (rows : t.store.records = s.store.records)
    (others : ∀ other, other ≠ name → t.get? other = s.get? other) {calls : List RowCall}
    (own : ∀ tx, t.get? name = some tx → tx.Follows calls s.store.records) :
    t.Recorded (l.put name calls) := by
  refine ⟨rows.trans h.rows, h.known, ?_⟩
  intro other tx open_
  rw [rows]
  by_cases same : other = name
  · subst same
    simpa only [Ledger.put, if_true] using own tx open_
  · rw [others other same] at open_
    simpa only [Ledger.put, same, if_false] using h.follows other tx open_

theorem Recorded.close (h : s.Recorded l) (rows : t.store.records = s.store.records)
    (left : ∀ other, t.get? other = if other = name then none else s.get? other) :
    t.Recorded (l.put name []) := by
  refine h.put t rows ?_ ?_
  · intro other apart
    rw [left, if_neg apart]
  · intro tx open_
    rw [left, if_pos rfl] at open_
    cases open_

theorem Recorded.commit (h : s.Recorded l) (open_ : s.get? name = some tx)
    (rows : t.store.records = s.store.written tx)
    (left : ∀ other, t.get? other = if other = name then none else s.get? other) :
    t.Recorded ⟨(l.put name []).opened, l.committed ++ [l.opened name]⟩ := by
  have own := h.follows name tx open_
  have calls : Ledger.calls ⟨(l.put name []).opened, l.committed ++ [l.opened name]⟩ =
      l.calls ++ l.opened name := by simp [Ledger.calls]
  have written : t.store.records = (l.opened name).foldl RowCall.perform s.store.records := by
    rw [rows, own.written]
  constructor
  · rw [calls, List.foldl_append, ← h.rows, written]
  · rw [calls, RowCall.known_append, ← h.rows]
    exact ⟨h.known, RowCall.known_of_marks own.marked⟩
  · intro other ux still
    rw [left] at still
    split at still
    · cases still
    next apart =>
      have follows := h.follows other ux still
      have there {id : Uuid} (old : id ∈ s.store.records.map (·.id)) : id ∈ t.store.records.map (·.id) := by
        rw [written, RowCall.ids_perform]
        exact List.mem_append_left _ old
      simp only [Ledger.put, apart, if_false]
      exact ⟨follows.appended, follows.updates, fun u hu => there (follows.marked u hu),
        fun id hid => there (follows.claimed id hid)⟩

theorem Recorded.keep (h : s.Recorded l) (open_ : s.get? name = some tx) {u : RowUpdate}
    {r : Except OutboxError (Transaction String)} (call : SessionAnswer → Option RowCall)
    (own : ∀ ux, r = .ok ux → ux.Follows (l.opened name ++ [.mark u]) s.store.records)
    (done : call (.done (.ok ())) = some (.mark u)) (failed : ∀ e, call (.done (.error e)) = none) :
    (s.keep name r).2.Recorded
      (l.put name (l.opened name ++ (call (s.keep name r).1).toList)) := by
  cases r with
  | error e =>
    refine h.put s rfl (fun _ _ => rfl) ?_
    intro ux hu
    cases open_.symm.trans hu
    simpa only [OutboxSession.keep, failed, Option.toList_none, List.append_nil] using h.follows name tx open_
  | ok ux =>
    refine h.put (s.put name ux) rfl (fun other apart => get?_put.trans (if_neg apart)) ?_
    intro vx hv
    obtain rfl : ux = vx := by simpa [get?_put] using hv
    simpa only [OutboxSession.keep, done, Option.toList_some] using own ux rfl

theorem Recorded.within (h : s.Recorded l) (open_ : s.get? name = some tx) (now : Instant)
    (step : TransactionStep) :
    (s.within name tx now step).2.Recorded (l.within now name step (s.within name tx now step).1) := by
  have own := h.follows name tx open_
  have apart {ux : Transaction String} (other : String) (ne : other ≠ name) :
      (s.put name ux).get? other = s.get? other := get?_put.trans (if_neg ne)
  have self {ux vx : Transaction String} (hv : (s.put name ux).get? name = some vx) : ux = vx := by
    simpa [get?_put] using hv
  have dropped : (s.drop name).Recorded (l.put name []) := by
    refine h.close ?_ (s.get?_drop name)
    rw [OutboxSession.drop, open_]
    rfl
  cases step with
  | append records =>
    refine h.put (s.put name (tx.append records)) rfl apart ?_
    intro ux hu
    obtain rfl := self hu
    exact own.append records
  | stage label =>
    refine h.put (s.put name (tx.stage label)) rfl apart ?_
    intro ux hu
    obtain rfl := self hu
    simpa [OutboxSession.within, TransactionStep.call?] using own.stage label
  | fetch limit =>
    refine h.put ({ s with store := (s.store.fetchPending tx limit).2.1 }.put name
      (s.store.fetchPending tx limit).2.2) rfl (fun other ne => get?_put.trans (if_neg ne)) ?_
    intro ux hu
    obtain rfl : (s.store.fetchPending tx limit).2.2 = ux := by simpa [get?_put] using hu
    simpa [OutboxSession.within, TransactionStep.call?] using own.fetch limit
  | markProcessed id =>
    refine h.keep open_ (u := .processed id now) (TransactionStep.call? now (.markProcessed id)) ?_ rfl
      (fun _ => rfl)
    intro ux hu
    obtain ⟨known, rfl⟩ := OutboxStore.mark_ok hu
    exact own.mark known
  | markFailed id error =>
    refine h.keep open_ (u := .failed id error) (TransactionStep.call? now (.markFailed id error)) ?_ rfl
      (fun _ => rfl)
    intro ux hu
    obtain ⟨known, rfl⟩ := OutboxStore.mark_ok hu
    exact own.mark known
  | appended =>
    refine h.put s rfl (fun _ _ => rfl) ?_
    intro ux hu
    cases open_.symm.trans hu
    simpa [OutboxSession.within, TransactionStep.call?] using own
  | commit =>
    by_cases fails : s.store.failCommits = true
    · simp only [OutboxSession.within, OutboxStore.commit, fails, if_true]
      exact h.close rfl (s.get?_close name)
    · simp only [OutboxSession.within, OutboxStore.commit, fails]
      exact h.commit open_ rfl (s.get?_close name)
  | rollback => exact dropped
  | drop => exact dropped

/-- A ledger that tells of an outbox still does when a step is taken down. -/
theorem Recorded.after (h : s.Recorded l) (now : Instant) (step : SessionStep) :
    (s.step now step).2.Recorded (l.after now (s.step now step).1 step) := by
  cases step with
  | begin name =>
    have fresh (other : String) : ((s.drop name).put name .empty).get? other =
        if other = name then some .empty else s.get? other := by
      rw [get?_put]
      split
      · rfl
      next apart => rw [get?_drop, if_neg apart]
    change ((s.drop name).put name .empty).Recorded (l.put name [])
    refine h.put ((s.drop name).put name .empty) (s.drop_records name) ?_ ?_
    · intro other apart
      rw [fresh, if_neg apart]
    · intro tx open_
      rw [fresh, if_pos rfl] at open_
      obtain rfl := Option.some.inj open_
      exact .empty _
  | within name step =>
    rcases open_ : s.get? name with _ | tx
    · have put : ∃ calls, l.within now name step .noTransaction = l.put name calls := by
        cases step <;> exact ⟨_, rfl⟩
      obtain ⟨calls, put⟩ := put
      simp only [OutboxSession.step, open_, Ledger.after, put]
      refine h.put s rfl (fun _ _ => rfl) ?_
      intro tx here
      cases open_.symm.trans here
    · simp only [OutboxSession.step, open_]
      exact h.within open_ now step
  | _ => exact ⟨h.rows, h.known, h.follows⟩

theorem Recorded.run (h : s.Recorded l) (history : List (Instant × SessionStep)) :
    (s.run history).Recorded (s.record l history) := by
  induction history generalizing s l with
  | nil => exact h
  | cons e history ih => exact ih (h.after e.1 e.2)

theorem step_evolves (s : OutboxSession) (now : Instant) (step : SessionStep) :
    Evolves s.store.records (s.step now step).2.store.records := by
  rcases s.step_records now step with same | ⟨_, tx, -, -, -, written⟩
  · rw [same]
    exact .refl _
  · rw [written]
    exact (Evolves.append _ _).trans (.foldl_apply _ _)

theorem run_evolves (s : OutboxSession) (history : List (Instant × SessionStep)) :
    Evolves s.store.records (s.run history).store.records := by
  induction history generalizing s with
  | nil => exact .refl _
  | cons e history ih => exact (s.step_evolves e.1 e.2).trans (ih _)

theorem Recorded.failures (h : s.Recorded l) (distinct : (s.store.records.map (·.id)).Nodup)
    {r : OutboxRecord} (hr : r ∈ s.store.records) :
    r.retries = (l.failures r.id).length ∧ r.lastError = (l.failures r.id).getLast? := by
  rw [h.rows] at distinct hr
  rw [RowCall.foldl_perform_eq_map h.known distinct, List.nil_append] at hr
  obtain ⟨first, hn, rfl⟩ := List.mem_map.mp hr
  obtain ⟨n, -, rfl⟩ := List.mem_map.mp hn
  have same : ((OutboxRecord.ofNew n).marked (RowCall.marks l.calls)).id = (OutboxRecord.ofNew n).id :=
    congrArg NewRecord.id (OutboxRecord.marked_written _ _)
  rw [same, OutboxRecord.marked_retries, OutboxRecord.marked_lastError]
  exact ⟨Nat.zero_add _, Option.or_none⟩

/-- Rows evolve. However the steps of any number of transactions come between each other, the rows are those
that the committed ones leave if each makes all its calls at once when it commits. A step that changes them is
a commit that succeeds. Each row keeps its place, what was written of it at first and its first time of
processing, counts the failures that committed transactions have marked on it, and tells the last of them. -/
theorem rows_evolve (history later : List (Instant × SessionStep))
    (distinct : ((empty.run (history ++ later)).store.records.map (·.id)).Nodup) :
    let s := empty.run history
    let t := empty.run (history ++ later)
    let l := empty.record .empty (history ++ later)
    t.store.records = l.committed.foldl (fun rows calls => calls.foldl RowCall.perform rows) [] ∧
      (∀ now step, (t.step now step).2.store.records ≠ t.store.records →
        ∃ name, step = .within name .commit ∧ (t.step now step).1 = .done (.ok ())) ∧
      Evolves s.store.records t.store.records ∧
      ∀ r ∈ t.store.records,
        r.retries = (l.failures r.id).length ∧ r.lastError = (l.failures r.id).getLast? := by
  intro s t l
  have recorded : t.Recorded l := recorded_empty.run (history ++ later)
  refine ⟨?_, ?_, ?_, fun r hr => recorded.failures distinct hr⟩
  · rw [recorded.rows, Ledger.calls, List.foldl_flatten]
  · intro now step changes
    rcases t.step_records now step with same | ⟨name, tx, rfl, -, done, -⟩
    · exact absurd same changes
    · exact ⟨name, rfl, done⟩
  · have split : t = s.run later := List.foldl_append
    rw [split]
    exact s.run_evolves later

/-- Two workers mark a failure on a row, and the one who began last commits first; a third gives up. -/
def busyWorkers : List (Instant × SessionStep) :=
  [.begin "writer", .within "writer" (.append [note 1, note 2]), .within "writer" .commit,
    .begin "a", .begin "b", .within "a" (.markFailed ⟨1⟩ "timeout"), .within "b" (.markFailed ⟨1⟩ "refused"),
    .begin "c", .within "c" (.markFailed ⟨1⟩ "lost"), .within "c" .rollback,
    .within "b" (.append [note 3]), .within "b" .commit, .within "a" .commit].map (noon, ·)

/-- The row is marked as processed twice. -/
def processedTwice : List (Instant × SessionStep) :=
  [(noon, .begin "a"), (noon, .within "a" (.markProcessed ⟨1⟩)), (noon, .begin "b"),
    (⟨noon.date, 13, 0, 0, 0, rfl⟩, .within "b" (.markProcessed ⟨1⟩)),
    (noon, .within "a" .commit), (noon, .within "b" .commit)]

theorem rows_evolve_busy_workers :
    let rows : List OutboxRecord :=
      [⟨note 1, 2, some "timeout", some noon⟩, .ofNew (note 2), .ofNew (note 3)]
    (empty.run (busyWorkers ++ processedTwice)).store.records = rows ∧
      (empty.record .empty (busyWorkers ++ processedTwice)).failures ⟨1⟩ = ["refused", "timeout"] ∧
      (empty.record .empty (busyWorkers ++ processedTwice)).committed.foldl
        (fun rows calls => calls.foldl RowCall.perform rows) [] = rows ∧
      Evolves (empty.run busyWorkers).store.records rows := by
  intro rows
  have left : (empty.run (busyWorkers ++ processedTwice)).store.records = rows := by decide
  have distinct : ((empty.run (busyWorkers ++ processedTwice)).store.records.map (·.id)).Nodup := by
    rw [left]
    decide
  obtain ⟨serial, -, evolves, -⟩ := rows_evolve busyWorkers processedTwice distinct
  exact ⟨left, by decide, serial ▸ left, left ▸ evolves⟩

end OutboxSession

end Workboard
