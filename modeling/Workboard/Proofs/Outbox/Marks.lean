import Workboard.Outbox.Ledger
import Workboard.Proofs.Outbox.Order

/-!
What marks do to rows. A row keeps what was written at first and its place; marks on other rows leave it as it
is.
-/

namespace Workboard

/-- Where only one row has the identifier, to change the first one is to change each. -/
theorem modifyFirst_id {rows : List OutboxRecord} (distinct : (rows.map (·.id)).Nodup) (id : Uuid)
    (f : OutboxRecord → OutboxRecord) :
    modifyFirst (fun r => r.id = id) f rows = rows.map fun r => if r.id = id then f r else r := by
  induction rows with
  | nil => rfl
  | cons r rows ih =>
    obtain ⟨fresh, rest⟩ := List.nodup_cons.mp distinct
    by_cases own : r.id = id
    · have others : ∀ q ∈ rows, q.id ≠ id := by
        rintro q hq rfl
        exact fresh (List.mem_map.mpr ⟨q, hq, own.symm⟩)
      have same : rows.map (fun q => if q.id = id then f q else q) = rows := by
        rw [List.map_congr_left fun q hq => if_neg (others q hq), List.map_id']
      simp [modifyFirst, own, same]
    · simp [modifyFirst, own, ih rest]

/-- The first row that has an identifier does not move when rows come behind it. -/
theorem modifyFirst_append {rows : List OutboxRecord} {id : Uuid} (there : id ∈ rows.map (·.id))
    (more : List OutboxRecord) (f : OutboxRecord → OutboxRecord) :
    modifyFirst (fun r => r.id = id) f (rows ++ more) = modifyFirst (fun r => r.id = id) f rows ++ more := by
  induction rows with
  | nil => cases there
  | cons r rows ih =>
    by_cases own : r.id = id
    · simp [modifyFirst, own]
    · have rest : id ∈ rows.map (·.id) := (List.mem_cons.mp there).resolve_left (Ne.symm own)
      simp [modifyFirst, own, ih rest]

namespace RowUpdate

theorem apply_append {rows : List OutboxRecord} {u : RowUpdate} (there : u.id ∈ rows.map (·.id))
    (more : List OutboxRecord) : u.apply (rows ++ more) = u.apply rows ++ more := by
  cases u with
  | processed id now => exact modifyFirst_append there more _
  | failed id error => exact modifyFirst_append there more _

/-- What a mark does to one row. -/
def on (r : OutboxRecord) : RowUpdate → OutboxRecord
  | .processed id now => if r.id = id then r.process now else r
  | .failed id error => if r.id = id then r.fail error else r

@[simp] theorem on_written (r : OutboxRecord) (u : RowUpdate) : (on r u).toNewRecord = r.toNewRecord := by
  cases u <;> simp only [on] <;> split <;> rfl

theorem apply_eq_map {rows : List OutboxRecord} (distinct : (rows.map (·.id)).Nodup) (u : RowUpdate) :
    apply rows u = rows.map (on · u) := by
  cases u with
  | processed id now => exact modifyFirst_id distinct id _
  | failed id error => exact modifyFirst_id distinct id _

theorem on_processed (r : OutboxRecord) (u : RowUpdate) :
    (on r u).processedAt = none ↔ r.processedAt = none ∧ ∀ now, u ≠ .processed r.id now := by
  cases u with
  | processed id now =>
    by_cases own : r.id = id
    · simp [on, own, OutboxRecord.process]
    · have other : ∀ later, (processed id now) ≠ .processed r.id later := by
        rintro later ⟨⟩
        exact own rfl
      simp [on, own, other]
  | failed id error =>
    simp only [on]
    split <;> simp [OutboxRecord.fail]

/-- A failure counts once and tells its text. -/
theorem on_failure (r : OutboxRecord) (u : RowUpdate) :
    (on r u).retries = r.retries + (u.failure? r.id).toList.length ∧
      (on r u).lastError = (u.failure? r.id).or r.lastError := by
  cases u with
  | processed id now =>
    simp only [on, failure?]
    split <;> exact ⟨rfl, rfl⟩
  | failed id error =>
    by_cases own : r.id = id
    · simp [on, failure?, own, OutboxRecord.fail]
    · simp [on, failure?, own, Ne.symm own]

end RowUpdate

namespace OutboxRecord

/-- What marks do to one row. -/
def marked (updates : List RowUpdate) (r : OutboxRecord) : OutboxRecord := updates.foldl RowUpdate.on r

@[simp] theorem marked_written (updates : List RowUpdate) (r : OutboxRecord) :
    (r.marked updates).toNewRecord = r.toNewRecord := by
  induction updates generalizing r with
  | nil => rfl
  | cons u updates ih => exact (ih _).trans (RowUpdate.on_written r u)

/-- A row counts the failures that were marked on it. -/
theorem marked_retries (updates : List RowUpdate) (r : OutboxRecord) :
    (r.marked updates).retries = r.retries + (updates.filterMap (RowUpdate.failure? r.id)).length := by
  induction updates generalizing r with
  | nil => rfl
  | cons u updates ih =>
    have same : (RowUpdate.on r u).id = r.id := congrArg NewRecord.id (RowUpdate.on_written r u)
    show ((RowUpdate.on r u).marked updates).retries = _
    rw [ih, same, (RowUpdate.on_failure r u).1, List.filterMap_cons]
    cases u.failure? r.id with
    | none => rfl
    | some error => exact Nat.add_right_comm r.retries 1 _

/-- The last failure that was marked on a row is the one that it tells. -/
theorem marked_lastError (updates : List RowUpdate) (r : OutboxRecord) :
    (r.marked updates).lastError =
      (updates.filterMap (RowUpdate.failure? r.id)).getLast?.or r.lastError := by
  induction updates generalizing r with
  | nil => rfl
  | cons u updates ih =>
    have same : (RowUpdate.on r u).id = r.id := congrArg NewRecord.id (RowUpdate.on_written r u)
    show ((RowUpdate.on r u).marked updates).lastError = _
    rw [ih, same, (RowUpdate.on_failure r u).2, List.filterMap_cons]
    cases u.failure? r.id with
    | none => rfl
    | some error => simp [List.getLast?_cons]

/-- A row is processed by marks just if one of them says so. -/
theorem marked_waits {updates : List RowUpdate} {r : OutboxRecord} :
    (r.marked updates).processedAt = none ↔
      r.processedAt = none ∧ ∀ now, RowUpdate.processed r.id now ∉ updates := by
  induction updates generalizing r with
  | nil => simp [marked]
  | cons u updates ih =>
    have same : (RowUpdate.on r u).id = r.id := congrArg NewRecord.id (RowUpdate.on_written r u)
    show ((RowUpdate.on r u).marked updates).processedAt = none ↔ _
    rw [ih, RowUpdate.on_processed, same]
    simp only [List.mem_cons, not_or, forall_and, and_assoc, ne_eq, eq_comm]

end OutboxRecord

namespace OutboxStore

variable {β : Type}

theorem apply_written (rows : List OutboxRecord) (u : RowUpdate) :
    (u.apply rows).map (·.toNewRecord) = rows.map (·.toNewRecord) := by
  have keeps (p : OutboxRecord → Bool) (f : OutboxRecord → OutboxRecord)
      (same : ∀ r, (f r).toNewRecord = r.toNewRecord) :
      (modifyFirst p f rows).map (·.toNewRecord) = rows.map (·.toNewRecord) := by
    induction rows with
    | nil => rfl
    | cons r rows ih =>
      rw [modifyFirst]
      split
      · simp [same]
      · simp [ih]
  cases u with
  | processed id now => exact keeps _ _ fun _ => rfl
  | failed id error => exact keeps _ _ fun _ => rfl

theorem foldl_apply_written (updates : List RowUpdate) (rows : List OutboxRecord) :
    (updates.foldl RowUpdate.apply rows).map (·.toNewRecord) = rows.map (·.toNewRecord) := by
  induction updates generalizing rows with
  | nil => rfl
  | cons u updates ih => exact (ih _).trans (apply_written rows u)

theorem foldl_apply_eq_map {rows : List OutboxRecord} (distinct : (rows.map (·.id)).Nodup)
    (updates : List RowUpdate) :
    updates.foldl RowUpdate.apply rows = rows.map (·.marked updates) := by
  induction updates generalizing rows with
  | nil => simp [OutboxRecord.marked]
  | cons u updates ih =>
    rw [List.foldl_cons, RowUpdate.apply_eq_map distinct, ih, List.map_map]
    · rfl
    · simpa [Function.comp_def] using distinct

theorem written_eq_map {s : OutboxStore} {tx : Transaction β}
    (distinct : ((s.records ++ tx.appended.map OutboxRecord.ofNew).map (·.id)).Nodup) :
    s.written tx = (s.records ++ tx.appended.map OutboxRecord.ofNew).map (·.marked tx.updates) :=
  foldl_apply_eq_map distinct tx.updates

section marks

variable {s t : OutboxStore} {tx ux : Transaction β} {u : RowUpdate}

theorem mark_ok (h : s.mark tx u = .ok ux) :
    s.knows tx u.id = true ∧ ux = { tx with updates := tx.updates ++ [u] } := by
  rw [mark] at h
  split at h
  next known => exact ⟨known, (Except.ok.inj h).symm⟩
  next => cases h

theorem tryMark_ok (h : s.tryMark tx u = (.ok ux, t)) :
    s.knows tx u.id = true ∧ ux = { tx with updates := tx.updates ++ [u] } := by
  unfold tryMark at h
  split at h
  next => cases h
  next passed =>
    obtain ⟨known, rfl⟩ := mark_ok (congrArg (·.1) h)
    rw [knows, (of_strike passed).1] at known
    exact ⟨known, rfl⟩

theorem knows_of_mem (tx : Transaction β) {r : OutboxRecord} (hr : r ∈ s.records) : s.knows tx r.id = true := by
  have row : s.records.any (fun q => q.id = r.id) = true := List.any_eq_true.mpr ⟨r, hr, by simp⟩
  rw [knows, row, Bool.or_true]

/-- A row that is known can be marked, unless that is to fail. -/
theorem tryMark_error {e : OutboxError} (known : s.knows tx u.id = true) (h : s.tryMark tx u = (.error e, t)) :
    e = u.call.fault := by
  unfold tryMark at h
  split at h
  next =>
    cases h
    rfl
  next passed =>
    rw [knows, ← (of_strike passed).1] at known
    rw [mark, knows, known] at h
    cases h

end marks

section calm

variable {s : OutboxStore} {tx : Transaction β}

/-- Nothing is to fail, and no one holds a row. -/
structure Calm (s : OutboxStore) : Prop where
  faults : s.faults = .none
  commits : s.failCommits = false
  free : s.claimed = []

theorem find?_of_mem (distinct : (s.records.map (·.id)).Nodup) {r : OutboxRecord} (h : r ∈ s.records) :
    s.find? r.id = some r := by
  rcases found : s.find? r.id with _ | q
  · have absent := List.find?_eq_none.mp found r h
    simp at absent
  · have own : q.id = r.id := by simpa using List.find?_some found
    rw [List.inj_on_of_nodup_map distinct (List.mem_of_find?_eq_some found) h own]

theorem strike_calm (calm : s.faults = .none) (call : OutboxCall) : s.strike call = (false, s) := by
  obtain ⟨records, claimed, failCommits, faults⟩ := s
  obtain rfl : faults = .none := calm
  rfl

theorem tryMark_calm (calm : s.faults = .none) (u : RowUpdate) (held : u.id ∈ tx.claimed) :
    s.tryMark tx u = (.ok { tx with updates := tx.updates ++ [u] }, s) := by
  simp [tryMark, strike_calm calm, mark, knows, held]

theorem tryCommit_calm (calm : s.faults = .none) (commits : s.failCommits = false)
    (tx : Transaction β) :
    s.tryCommit tx = (.ok tx.staged, { s.rollback tx with records := s.written tx }) := by
  simp [tryCommit, strike_calm calm, commit, commits]

end calm

end OutboxStore

end Workboard
