import Workboard.Outbox.Ledger
import Workboard.Proofs.Outbox.Claims
import Workboard.Proofs.Outbox.Marks

/-!
The calls of a transaction. What they leave when the transaction commits is what they would do to rows one by
one, since no transaction marks rows of its own.
-/

namespace Workboard

namespace RowCall

def marks (calls : List RowCall) : List RowUpdate := calls.filterMap mark?

def newRows (calls : List RowCall) : List NewRecord := calls.flatMap added

@[simp] theorem marks_nil : marks [] = [] := rfl

@[simp] theorem newRows_nil : newRows [] = [] := rfl

@[simp] theorem marks_append (records : List NewRecord) (calls : List RowCall) :
    marks (.append records :: calls) = marks calls := rfl

@[simp] theorem marks_mark (u : RowUpdate) (calls : List RowCall) :
    marks (.mark u :: calls) = u :: marks calls := rfl

@[simp] theorem newRows_append (records : List NewRecord) (calls : List RowCall) :
    newRows (.append records :: calls) = records ++ newRows calls := by simp [newRows, added]

theorem marks_concat (calls more : List RowCall) : marks (calls ++ more) = marks calls ++ marks more :=
  List.filterMap_append

theorem newRows_concat (calls more : List RowCall) :
    newRows (calls ++ more) = newRows calls ++ newRows more := List.flatMap_append

@[simp] theorem newRows_mark (u : RowUpdate) (calls : List RowCall) :
    newRows (.mark u :: calls) = newRows calls := by simp [newRows, added]

/-- Each mark is made on a row that is there. -/
def Known (rows : List OutboxRecord) : List RowCall → Prop
  | [] => True
  | .append records :: calls => Known (rows ++ records.map .ofNew) calls
  | .mark update :: calls => update.id ∈ rows.map (·.id) ∧ Known (update.apply rows) calls

theorem ids_apply (u : RowUpdate) (rows : List OutboxRecord) :
    (u.apply rows).map (·.id) = rows.map (·.id) := by
  have same := congrArg (List.map NewRecord.id) (OutboxStore.apply_written rows u)
  simpa [Function.comp_def] using same

theorem ids_perform (rows : List OutboxRecord) (calls : List RowCall) :
    (calls.foldl perform rows).map (·.id) = rows.map (·.id) ++ (newRows calls).map (·.id) := by
  induction calls generalizing rows with
  | nil => simp [newRows]
  | cons call calls ih =>
    rw [List.foldl_cons, ih]
    cases call with
    | append records => simp [perform, OutboxRecord.ofNew, Function.comp_def]
    | mark update => simp [perform, ids_apply]

theorem mem_ids_perform {rows : List OutboxRecord} {id : Uuid} (call : RowCall) (old : id ∈ rows.map (·.id)) :
    id ∈ (perform rows call).map (·.id) := by
  have ids := ids_perform rows [call]
  rw [List.foldl_cons, List.foldl_nil] at ids
  rw [ids]
  exact List.mem_append_left _ old

/-- Marks that come later are made on rows that are there. -/
theorem there_perform {rows : List OutboxRecord} {call : RowCall} {calls : List RowCall}
    (there : ∀ u ∈ marks (call :: calls), u.id ∈ rows.map (·.id)) :
    ∀ u ∈ marks calls, u.id ∈ (perform rows call).map (·.id) := by
  intro u hu
  apply mem_ids_perform
  cases call with
  | append records => exact there u hu
  | mark update => exact there u (List.mem_cons_of_mem _ hu)

theorem known_append {rows : List OutboxRecord} {calls more : List RowCall} :
    Known rows (calls ++ more) ↔ Known rows calls ∧ Known (calls.foldl perform rows) more := by
  induction calls generalizing rows with
  | nil => simp [Known]
  | cons call calls ih =>
    cases call with
    | append records => exact ih
    | mark update => simp only [List.cons_append, Known, ih, List.foldl_cons, perform, and_assoc]

theorem known_of_marks {rows : List OutboxRecord} {calls : List RowCall}
    (there : ∀ u ∈ marks calls, u.id ∈ rows.map (·.id)) : Known rows calls := by
  induction calls generalizing rows with
  | nil => trivial
  | cons call calls ih =>
    have rest := ih (there_perform there)
    cases call with
    | append records => exact rest
    | mark update => exact ⟨there update (by simp), rest⟩

/-- A transaction that writes its rows first and then marks has done what its calls do one by one, if it marks
rows that were there before. -/
theorem foldl_perform {rows : List OutboxRecord} {calls : List RowCall}
    (there : ∀ u ∈ marks calls, u.id ∈ rows.map (·.id)) :
    (marks calls).foldl RowUpdate.apply (rows ++ (newRows calls).map .ofNew) = calls.foldl perform rows := by
  induction calls generalizing rows with
  | nil => simp [marks, newRows]
  | cons call calls ih =>
    rw [List.foldl_cons, ← ih (there_perform there)]
    cases call with
    | append records => simp [perform]
    | mark update =>
      have own : update.id ∈ rows.map (·.id) := there update (by simp)
      simp [perform, RowUpdate.apply_append own]

/-- Each row is what all marks together make of it as it was first written. -/
theorem foldl_perform_eq_map {rows : List OutboxRecord} {calls : List RowCall} (known : Known rows calls)
    (distinct : ((calls.foldl perform rows).map (·.id)).Nodup) :
    calls.foldl perform rows =
      (rows ++ (newRows calls).map OutboxRecord.ofNew).map (OutboxRecord.marked (marks calls)) := by
  induction calls generalizing rows with
  | nil =>
    have unmarked : OutboxRecord.marked [] = id := rfl
    simp [unmarked]
  | cons call calls ih =>
    rw [List.foldl_cons] at distinct ⊢
    cases call with
    | append records =>
      refine (ih known distinct).trans ?_
      simp
    | mark update =>
      obtain ⟨there, known⟩ := known
      refine (ih known distinct).trans ?_
      rw [ids_perform, perform, ids_apply] at distinct
      obtain ⟨once, -, apart⟩ := List.nodup_append.mp distinct
      -- rows that come later are not the one that is marked
      have later : ∀ n ∈ newRows calls, (OutboxRecord.ofNew n).marked (update :: marks calls) =
          (OutboxRecord.ofNew n).marked (marks calls) := by
        intro n hn
        have other : n.id ≠ update.id := (apart _ there _ (List.mem_map_of_mem hn)).symm
        have left : RowUpdate.on (.ofNew n) update = .ofNew n := by
          cases update <;> exact if_neg other
        rw [OutboxRecord.marked, List.foldl_cons, left, OutboxRecord.marked]
      rw [RowUpdate.apply_eq_map once]
      rw [marks_mark, newRows_mark, List.map_append, List.map_append, List.map_map, List.map_map, List.map_map]
      congr 1
      exact List.map_congr_left fun n hn => (later n hn).symm

end RowCall

/-- A transaction holds what its calls have asked of it, all for rows that are there. -/
structure Transaction.Follows {β : Type} (tx : Transaction β) (calls : List RowCall) (rows : List OutboxRecord) :
    Prop where
  appended : tx.appended = RowCall.newRows calls
  updates : tx.updates = RowCall.marks calls
  marked : ∀ u ∈ RowCall.marks calls, u.id ∈ rows.map (·.id)
  claimed : ∀ id ∈ tx.claimed, id ∈ rows.map (·.id)

namespace Transaction.Follows

variable {β : Type} {tx ux : Transaction β} {calls : List RowCall} {s : OutboxStore}

theorem empty (rows : List OutboxRecord) : (Transaction.empty : Transaction β).Follows [] rows :=
  ⟨rfl, rfl, by simp, by simp [Transaction.empty]⟩

theorem append (h : tx.Follows calls s.records) (records : List NewRecord) :
    (tx.append records).Follows (calls ++ [.append records]) s.records := by
  refine ⟨?_, ?_, ?_, h.claimed⟩
  · simp [Transaction.append, RowCall.newRows_concat, h.appended]
  · simp [Transaction.append, RowCall.marks_concat, h.updates]
  · simpa [RowCall.marks_concat] using h.marked

theorem stage (h : tx.Follows calls s.records) (write : β) : (tx.stage write).Follows calls s.records :=
  ⟨h.appended, h.updates, h.marked, h.claimed⟩

theorem fetch (h : tx.Follows calls s.records) (limit : Nat) :
    (s.fetchPending tx limit).2.2.Follows calls s.records := by
  refine ⟨h.appended, h.updates, h.marked, ?_⟩
  intro id hid
  rcases List.mem_append.mp hid with old | new
  · exact h.claimed id old
  · obtain ⟨r, hr, rfl⟩ := List.mem_map.mp new
    exact List.mem_map_of_mem (OutboxStore.mem_available.mp (List.mem_of_mem_take hr)).1

theorem tryFetch (h : tx.Follows calls s.records) (limit : Nat) :
    (s.tryFetch tx limit).2.2.Follows calls s.records := by
  unfold OutboxStore.tryFetch
  split
  next => exact h
  next passed =>
    rw [← (OutboxStore.of_strike passed).1] at h ⊢
    exact h.fetch limit

theorem knows (h : tx.Follows calls s.records) {id : Uuid} (known : s.knows tx id = true) :
    id ∈ s.records.map (·.id) := by
  simp only [OutboxStore.knows, Bool.or_eq_true, List.contains_iff_mem, List.any_eq_true,
    decide_eq_true_eq] at known
  rcases known with taken | ⟨r, hr, same⟩
  · exact h.claimed _ taken
  · exact same ▸ List.mem_map_of_mem hr

theorem mark (h : tx.Follows calls s.records) {u : RowUpdate} (known : s.knows tx u.id = true) :
    ({ tx with updates := tx.updates ++ [u] } : Transaction β).Follows (calls ++ [.mark u]) s.records := by
  refine ⟨?_, ?_, ?_, h.claimed⟩
  · simp [RowCall.newRows_concat, h.appended]
  · simp [RowCall.marks_concat, h.updates]
  · intro v hv
    rw [RowCall.marks_concat] at hv
    rcases List.mem_append.mp hv with old | new
    · exact h.marked v old
    · obtain rfl : v = u := by simpa using new
      exact h.knows known

/-- Its commit does to rows what its calls do one by one. -/
theorem written (h : tx.Follows calls s.records) : s.written tx = calls.foldl RowCall.perform s.records := by
  rw [OutboxStore.written, h.appended, h.updates]
  exact RowCall.foldl_perform h.marked

end Transaction.Follows

end Workboard
