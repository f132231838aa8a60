import Workboard.Outbox.Store

/-!
Which rows are taken. A transaction takes rows that no one else holds, and its end gives back exactly
those.
-/

namespace Workboard.OutboxStore

variable {β : Type}

@[simp] theorem strike_claimed (s : OutboxStore) (call : OutboxCall) :
    (s.strike call).2.claimed = s.claimed := rfl

theorem of_strike {s t : OutboxStore} {call : OutboxCall} {hit : Bool}
    (h : s.strike call = (hit, t)) : t.records = s.records ∧ t.claimed = s.claimed := by
  obtain rfl : (s.strike call).2 = t := congrArg (·.2) h
  exact ⟨rfl, rfl⟩

theorem strike_false {s : OutboxStore} {call : OutboxCall} (h : (s.strike call).1 = false) :
    s.strike call = (false, { s with faults := (s.faults.strike call).2 }) := by
  rw [← h]
  rfl

/-- Whether a call fails does not depend on calls of other kinds. -/
theorem strike_fst_of_ne {s : OutboxStore} {call other : OutboxCall} (apart : other ≠ call) :
    ({ s with faults := (s.faults.strike call).2 }.strike other).1 = (s.strike other).1 := by
  show ((s.faults.strike call).2.strike other).1 = (s.faults.strike other).1
  rw [Faults.strike_fst, Faults.strike_fst, s.faults.plan_strike apart]

theorem mem_available {s : OutboxStore} {r : OutboxRecord} :
    r ∈ s.available ↔ r ∈ s.records ∧ r.isPending = true ∧ r.id ∉ s.claimed := by
  simp [available]

theorem mem_available_of_free {s : OutboxStore} (free : s.claimed = []) {r : OutboxRecord} :
    r ∈ s.available ↔ r ∈ s.records ∧ r.processedAt = none := by
  simp [mem_available, OutboxRecord.isPending, free]

theorem foldl_claim_append (ids claimed : List Uuid) :
    ∃ more, ids.foldl claim claimed = claimed ++ more ∧ ∀ id ∈ more, id ∈ ids := by
  induction ids generalizing claimed with
  | nil => exact ⟨[], by simp, by simp⟩
  | cons id ids ih =>
    obtain ⟨more, he, hm⟩ := ih (claim claimed id)
    by_cases held : claimed.contains id
    · refine ⟨more, by simpa only [List.foldl_cons, claim, held, if_true] using he, ?_⟩
      exact fun x hx => List.mem_cons_of_mem _ (hm x hx)
    · refine ⟨id :: more, ?_, ?_⟩
      · simpa only [List.foldl_cons, claim, held, Bool.false_eq_true, if_false, List.append_assoc,
          List.singleton_append] using he
      · intro x hx
        rcases List.mem_cons.mp hx with rfl | hx
        · exact List.mem_cons_self
        · exact List.mem_cons_of_mem _ (hm x hx)

theorem mem_foldl_claim {ids claimed : List Uuid} {id : Uuid} :
    id ∈ ids.foldl claim claimed ↔ id ∈ claimed ∨ id ∈ ids := by
  induction ids generalizing claimed with
  | nil => simp
  | cons x ids ih =>
    rw [List.foldl_cons, ih]
    by_cases held : x ∈ claimed
    · simp only [claim, List.contains_iff_mem, held, if_true, List.mem_cons]
      grind
    · simp [claim, held, or_assoc]

/-- The claims of a store are those that were there before a transaction began and its own. -/
structure Holds (before : List Uuid) (s : OutboxStore) (tx : Transaction β) : Prop where
  split : ∃ own, s.claimed = before ++ own ∧ ∀ id ∈ own, id ∈ tx.claimed
  apart : ∀ id ∈ before, id ∉ tx.claimed

theorem holds_empty (s : OutboxStore) : Holds s.claimed s (.empty : Transaction β) :=
  ⟨⟨[], by simp, by simp⟩, by simp [Transaction.empty]⟩

theorem Holds.congr {before : List Uuid} {s t : OutboxStore} {tx ux : Transaction β}
    (h : Holds before s tx) (hs : t.claimed = s.claimed) (ht : ux.claimed = tx.claimed) :
    Holds before t ux := by
  obtain ⟨own, he, hm⟩ := h.split
  exact ⟨⟨own, hs.trans he, fun id hid => ht ▸ hm id hid⟩, fun id hid => ht ▸ h.apart id hid⟩

theorem Holds.fetchPending {before : List Uuid} {s : OutboxStore} {tx : Transaction β}
    (h : Holds before s tx) (limit : Nat) :
    Holds before (s.fetchPending tx limit).2.1 (s.fetchPending tx limit).2.2 := by
  obtain ⟨own, he, hm⟩ := h.split
  obtain ⟨more, hf, hmore⟩ := foldl_claim_append ((s.available.take limit).map (·.id)) s.claimed
  constructor
  · refine ⟨own ++ more, ?_, ?_⟩
    · exact hf.trans (by rw [he, List.append_assoc])
    · intro id hid
      rcases List.mem_append.mp hid with hid | hid
      · exact List.mem_append_left _ (hm id hid)
      · exact List.mem_append_right _ (hmore id hid)
  · intro id hid hin
    rcases List.mem_append.mp hin with hin | hin
    · exact h.apart id hid hin
    · obtain ⟨r, hr, rfl⟩ := List.mem_map.mp hin
      have free := (mem_available.mp (List.mem_of_mem_take hr)).2.2
      exact free (he ▸ List.mem_append_left _ hid)

theorem Holds.rollback {before : List Uuid} {s : OutboxStore} {tx : Transaction β}
    (h : Holds before s tx) : (s.rollback tx).claimed = before := by
  obtain ⟨own, he, hm⟩ := h.split
  have kept : before.filter (fun id => !tx.claimed.contains id) = before := by
    apply List.filter_eq_self.mpr
    intro id hid
    simpa using h.apart id hid
  have gone : own.filter (fun id => !tx.claimed.contains id) = [] := by
    apply List.filter_eq_nil_iff.mpr
    intro id hid
    simpa using hm id hid
  rw [OutboxStore.rollback, he, List.filter_append, kept, gone, List.append_nil]

/-- A call that changes a transaction and leaves rows and claims alone. -/
structure Quiet (s : OutboxStore) (tx : Transaction β)
    (r : Except OutboxError (Transaction β) × OutboxStore) : Prop where
  records : r.2.records = s.records
  claimed : r.2.claimed = s.claimed
  own : ∀ ux, r.1 = .ok ux → ux.claimed = tx.claimed

theorem quiet_tryAppend (s : OutboxStore) (tx : Transaction β) (records : List NewRecord) :
    s.Quiet tx (s.tryAppend tx records) := by
  unfold tryAppend
  split
  next hs => exact ⟨(of_strike hs).1, (of_strike hs).2, by simp⟩
  next hs =>
    refine ⟨(of_strike hs).1, (of_strike hs).2, ?_⟩
    intro ux hu
    cases hu
    rfl

theorem quiet_tryMark (s : OutboxStore) (tx : Transaction β) (u : RowUpdate) : s.Quiet tx (s.tryMark tx u) := by
  unfold tryMark
  split
  next hs => exact ⟨(of_strike hs).1, (of_strike hs).2, by simp⟩
  next hs =>
    refine ⟨(of_strike hs).1, (of_strike hs).2, ?_⟩
    intro ux hu
    simp only [mark] at hu
    split at hu <;> cases hu
    rfl

theorem Holds.tryFetch {before : List Uuid} {s : OutboxStore} {tx : Transaction β}
    (h : Holds before s tx) (limit : Nat) :
    Holds before (s.tryFetch tx limit).2.1 (s.tryFetch tx limit).2.2 := by
  unfold OutboxStore.tryFetch
  split
  next hs => exact h.congr (of_strike hs).2 rfl
  next hs => exact (h.congr (of_strike hs).2 rfl).fetchPending limit

theorem available_congr {s t : OutboxStore} (hr : t.records = s.records)
    (hc : t.claimed = s.claimed) : t.available = s.available := by
  rw [available, available, hr, hc]

theorem tryFetch_ok {s t : OutboxStore} {tx ux : Transaction β} {limit : Nat}
    {rows : List OutboxRecord} (h : s.tryFetch tx limit = (.ok rows, t, ux)) :
    rows = s.available.take limit := by
  unfold OutboxStore.tryFetch at h
  split at h
  next => cases h
  next hs =>
    cases h
    rw [available_congr (of_strike hs).1 (of_strike hs).2]

theorem tryFetch_error {s t : OutboxStore} {tx ux : Transaction β} {limit : Nat} {e : OutboxError}
    (h : s.tryFetch tx limit = (.error e, t, ux)) : t.claimed = s.claimed := by
  unfold OutboxStore.tryFetch at h
  split at h
  next hs =>
    cases h
    exact (of_strike hs).2
  next => cases h

@[simp] theorem tryFetch_records (s : OutboxStore) (tx : Transaction β) (limit : Nat) :
    (s.tryFetch tx limit).2.1.records = s.records := by
  unfold OutboxStore.tryFetch
  split
  next hs => exact (of_strike hs).1
  next hs => exact (of_strike hs).1

@[simp] theorem tryFetch_staged (s : OutboxStore) (tx : Transaction β) (limit : Nat) :
    (s.tryFetch tx limit).2.2.staged = tx.staged := by
  unfold OutboxStore.tryFetch
  split <;> rfl

/-- A commit gives the claims back, whether or not it succeeds. -/
theorem commit_claimed (s : OutboxStore) (tx : Transaction β) :
    (s.commit tx).2.claimed = (s.rollback tx).claimed := by
  unfold commit
  split <;> rfl

theorem tryCommit_claimed (s : OutboxStore) (tx : Transaction β) :
    (s.tryCommit tx).2.claimed = (s.rollback tx).claimed := by
  unfold tryCommit
  split
  next hs => rw [rollback, rollback, (of_strike hs).2]
  next hs => rw [commit_claimed, rollback, rollback, (of_strike hs).2]

theorem tryCommit_error {s after : OutboxStore} {tx : Transaction β} {e : OutboxError}
    (h : s.tryCommit tx = (.error e, after)) :
    after.records = s.records ∧ after.claimed = (s.rollback tx).claimed := by
  have given := tryCommit_claimed s tx
  rw [h] at given
  refine ⟨?_, given⟩
  unfold tryCommit at h
  split at h
  next hs =>
    cases h
    exact (of_strike hs).1
  next hs =>
    unfold commit at h
    split at h <;> cases h
    exact (of_strike hs).1

theorem tryCommit_ok {s t : OutboxStore} {tx : Transaction β} {writes : List β}
    (h : s.tryCommit tx = (.ok writes, t)) : writes = tx.staged ∧ t.records = s.written tx := by
  unfold tryCommit at h
  split at h
  next => cases h
  next hs =>
    unfold commit at h
    split at h
    next => cases h
    next =>
      cases h
      exact ⟨rfl, by rw [written, written, (of_strike hs).1]⟩

end Workboard.OutboxStore
