import Workboard.Proofs.Relay.Refusal
import Mathlib.Data.List.Perm.Subperm

/-!
How far a relay gets when some rows are always refused. Rows that are refused, and those of their aggregates
behind them, stay at the head of the queue and take places in each batch; a row behind a whole batch of them
never has its turn, and every other row is processed.
-/

namespace Workboard.Relay

variable {σ γ : Type}

/-- The row waits for itself to be accepted, or for a row of its aggregate before it. -/
def Stuck (relay : Relay σ γ) (poison : Uuid → Prop) (records : List OutboxRecord) (r : OutboxRecord) :
    Prop :=
  r.processedAt = none ∧ ∃ q, (q = r ∨ Precedes records q r ∧ q.aggregateId = r.aggregateId) ∧
    q.processedAt = none ∧ relay.Refused poison q

/-- Rows that are stuck fill a batch before the row has its turn. -/
def CrowdedOut (relay : Relay σ γ) (poison : Uuid → Prop) (records : List OutboxRecord)
    (r : OutboxRecord) : Prop :=
  ∃ ids : List Uuid, ids.Nodup ∧ ids.length = relay.batchSize ∧
    ∀ id ∈ ids, ∃ q, q.id = id ∧ relay.Stuck poison records q ∧ Precedes records q r

variable {relay : Relay σ γ} {poison : Uuid → Prop} {w : RelayWorld σ}

/-- A batch is done with the rows at the head of the queue that are not stuck; all others wait as before. -/
structure Works (relay : Relay σ γ) (poison : Uuid → Prop) (s t : OutboxStore)
    (change : OutboxRecord → OutboxRecord) : Prop where
  calm : t.Calm
  records : t.records = s.records.map change
  written : ∀ r ∈ s.records, (change r).toNewRecord = r.toNewRecord
  waits : ∀ r ∈ s.records, (change r).processedAt = none ↔ r.processedAt = none ∧
    (r ∈ s.available.take relay.batchSize → relay.Stuck poison s.records r)

/-- What blocks a row in a batch are the rows of its aggregate that are refused there before it. -/
theorem stuck_of_taken {s : OutboxStore} (free : s.claimed = [])
    (distinct : (s.records.map (·.id)).Nodup) {front back : List OutboxRecord} {r : OutboxRecord}
    (taken : s.available.take relay.batchSize = front ++ r :: back) :
    relay.Stuck poison s.records r ↔ relay.Refused poison r ∨
      ∃ q ∈ front, relay.Refused poison q ∧ q.aggregateId = r.aggregateId := by
  have queued := fun q => OutboxStore.mem_available_of_free free (r := q)
  have ordered := (OutboxStore.available_ordered distinct).sublist (List.take_sublist relay.batchSize _)
  have head : ∀ q ∈ front ++ r :: back, q ∈ s.available := by
    intro q hq
    exact List.mem_of_mem_take (taken ▸ hq)
  have waits := ((queued r).mp (head r (by simp))).2
  constructor
  · rintro ⟨-, q, rfl | ⟨order, same⟩, pending, refused⟩
    · exact .inl refused
    · have hq := (queued q).mpr ⟨order.mem.1, pending⟩
      exact .inr ⟨q, OutboxStore.mem_front_of_precedes distinct taken order hq, refused, same⟩
  · rintro (refused | ⟨q, hq, refused, same⟩)
    · exact ⟨waits, r, .inl rfl, waits, refused⟩
    · rw [taken] at ordered
      have order := (List.pairwise_append.mp ordered).2.2 q hq r List.mem_cons_self
      have pending := ((queued q).mp (head q (by simp [hq]))).2
      exact ⟨waits, q, .inr ⟨order, same⟩, pending, refused⟩

theorem runBatch_works (refuses : relay.RefusesJust poison (w.store.records.map (·.toNewRecord)))
    (calm : w.store.Calm) (distinct : (w.store.records.map (·.id)).Nodup) :
    ∃ change, relay.Works poison w.store (relay.runBatch w).2.2.store change := by
  let taken := w.store.available.take relay.batchSize
  let fetched := w.store.fetchPending (.empty : Transaction Empty) relay.batchSize
  have held : ∀ r ∈ taken, r.id ∈ (Batch.start fetched.2.2 taken).tx.claimed := by
    intro r hr
    show r.id ∈ [] ++ taken.map (·.id)
    simpa using ⟨r, hr, rfl⟩
  have stored : ∀ r ∈ taken, r ∈ w.store.records := fun r hr =>
    (OutboxStore.mem_available.mp (List.mem_of_mem_take hr)).1
  have known : ∀ r ∈ taken, r.toNewRecord ∈ w.store.records.map (·.toNewRecord) := fun r hr =>
    List.mem_map_of_mem (stored r hr)
  obtain ⟨turns, c, v, delivered, store, rows, tx, done⟩ :=
    Batch.deliver_calm refuses taken (w := { w with store := fetched.2.1 }) calm.faults known held
  have ran : (relay.runBatch w).2.2.store =
      { v.store.rollback c.tx with records := v.store.written c.tx } := by
    have commits := OutboxStore.tryCommit_calm (s := v.store) (store ▸ calm.faults)
      (store ▸ calm.commits) c.tx
    simp only [runBatch, begin_of_calm relay calm.faults]
    simp only [taken, fetched, OutboxStore.fetchPending] at delivered
    simp only [OutboxStore.fetchPending, delivered, commits]
  have settled : ∀ e ∈ turns, e.2.Done ↔ ¬ relay.Stuck poison w.store.records e.1 := by
    intro e he
    obtain ⟨before, after, split⟩ := List.append_of_mem he
    have queue : taken = before.map (·.1) ++ e.1 :: after.map (·.1) := by
      rw [← rows, split, List.map_append, List.map_cons]
    rw [done before e.1 e.2 after split, stuck_of_taken calm.free distinct queue]
    simp [Batch.start]
  have updates : c.tx.updates = turns.filterMap fun e => e.2.update relay.now e.1 := by
    rw [tx]
    rfl
  have records : v.store.written c.tx = w.store.records.map (·.marked c.tx.updates) := by
    have none_new : v.store.records ++ c.tx.appended.map .ofNew = w.store.records := by
      rw [store, tx]
      exact List.append_nil _
    rw [OutboxStore.written_eq_map (none_new ▸ distinct), none_new]
  rw [ran]
  refine ⟨_, ⟨?_, ?_, ?_⟩, records, fun r _ => r.marked_written _, ?_⟩
  · exact (congrArg OutboxStore.faults store).trans calm.faults
  · exact (congrArg OutboxStore.failCommits store).trans calm.commits
  · have claimed : c.tx.claimed = taken.map (·.id) := by
      rw [tx]
      exact List.nil_append _
    apply List.filter_eq_nil_iff.mpr
    intro id hid
    rw [store] at hid
    have own := (OutboxStore.mem_foldl_claim.mp hid).resolve_left (by simp [calm.free])
    rw [claimed, List.contains_iff_mem.mpr own]
    exact Bool.false_ne_true
  · intro r hr
    have mem : ∀ e ∈ turns, e.1 ∈ w.store.records := fun e he => stored e.1 (rows ▸ List.mem_map_of_mem he)
    rw [OutboxRecord.marked_waits, updates, Turn.unmarked_iff distinct mem settled relay.now hr, rows]

section change

variable {s t : OutboxStore} {change : OutboxRecord → OutboxRecord}

theorem Works.written_eq (h : relay.Works poison s t change) :
    t.records.map (·.toNewRecord) = s.records.map (·.toNewRecord) := by
  rw [h.records, List.map_map]
  exact List.map_congr_left fun r hr => h.written r hr

theorem Works.id_eq (h : relay.Works poison s t change) {r : OutboxRecord} (hr : r ∈ s.records) :
    (change r).id = r.id :=
  congrArg NewRecord.id (h.written r hr)

theorem Works.distinct (h : relay.Works poison s t change) (distinct : (s.records.map (·.id)).Nodup) :
    (t.records.map (·.id)).Nodup := by
  have same := congrArg (List.map NewRecord.id) h.written_eq
  rw [List.map_map, List.map_map] at same
  exact same ▸ distinct

theorem Works.refused (h : relay.Works poison s t change) {r : OutboxRecord} (hr : r ∈ s.records) :
    relay.Refused poison (change r) ↔ relay.Refused poison r := by
  rw [Refused, Refused, h.written r hr]

theorem Works.waits_of_stuck (h : relay.Works poison s t change) {r : OutboxRecord} (hr : r ∈ s.records)
    (stuck : relay.Stuck poison s.records r) : (change r).processedAt = none :=
  (h.waits r hr).mpr ⟨stuck.1, fun _ => stuck⟩

theorem Works.precedes (h : relay.Works poison s t change) (distinct : (s.records.map (·.id)).Nodup)
    {r : OutboxRecord} (hr : r ∈ s.records) {p : OutboxRecord} :
    Precedes t.records p (change r) ↔ ∃ q, p = change q ∧ Precedes s.records q r := by
  rw [h.records]
  constructor
  · rintro ⟨i, j, hi, hj, order⟩
    rw [List.getElem?_map, Option.map_eq_some_iff] at hi hj
    obtain ⟨q, hq, rfl⟩ := hi
    obtain ⟨x, hx, same⟩ := hj
    have mem := List.mem_of_getElem? hx
    obtain rfl : x = r := List.inj_on_of_nodup_map distinct mem hr
      (by rw [← h.id_eq mem, ← h.id_eq hr, same])
    rw [h.written x hr, h.written q (List.mem_of_getElem? hq)] at order
    exact ⟨q, rfl, i, j, hq, hx, order⟩
  · rintro ⟨q, rfl, i, j, hi, hj, order⟩
    refine ⟨i, j, by simp [hi], by simp [hj], ?_⟩
    rwa [h.written r hr, h.written q (List.mem_of_getElem? hi)]

/-- A batch frees no row that is stuck, and none becomes stuck. -/
theorem Works.stuck (h : relay.Works poison s t change) (distinct : (s.records.map (·.id)).Nodup)
    {r : OutboxRecord} (hr : r ∈ s.records) :
    relay.Stuck poison t.records (change r) ↔ relay.Stuck poison s.records r := by
  constructor
  · rintro ⟨waits, p, own | ⟨order, same⟩, pending, refused⟩
    · rw [own, h.refused hr] at refused
      have waited := ((h.waits r hr).mp waits).1
      exact ⟨waited, r, .inl rfl, waited, refused⟩
    · obtain ⟨q, rfl, before⟩ := (h.precedes distinct hr).mp order
      have hq := before.mem.1
      rw [h.written r hr, h.written q hq] at same
      exact ⟨((h.waits r hr).mp waits).1, q, .inr ⟨before, same⟩, ((h.waits q hq).mp pending).1,
        (h.refused hq).mp refused⟩
  · intro stuck
    have waits := h.waits_of_stuck hr stuck
    obtain ⟨-, q, rfl | ⟨before, same⟩, pending, refused⟩ := stuck
    · exact ⟨waits, _, .inl rfl, waits, (h.refused hr).mpr refused⟩
    · have hq := before.mem.1
      have still := h.waits_of_stuck hq ⟨pending, q, .inl rfl, pending, refused⟩
      refine ⟨waits, change q, .inr ⟨?_, ?_⟩, still, (h.refused hq).mpr refused⟩
      · exact (h.precedes distinct hr).mpr ⟨q, rfl, before⟩
      · rwa [h.written r hr, h.written q hq]

theorem Works.crowdedOut (h : relay.Works poison s t change)
    (distinct : (s.records.map (·.id)).Nodup) {r : OutboxRecord} (hr : r ∈ s.records) :
    relay.CrowdedOut poison t.records (change r) ↔ relay.CrowdedOut poison s.records r := by
  have same (id : Uuid) :
      (∃ p, p.id = id ∧ relay.Stuck poison t.records p ∧ Precedes t.records p (change r)) ↔
        ∃ q, q.id = id ∧ relay.Stuck poison s.records q ∧ Precedes s.records q r := by
    constructor
    · rintro ⟨p, own, stuck, order⟩
      obtain ⟨q, rfl, before⟩ := (h.precedes distinct hr).mp order
      exact ⟨q, h.id_eq before.mem.1 ▸ own, (h.stuck distinct before.mem.1).mp stuck, before⟩
    · rintro ⟨q, own, stuck, before⟩
      refine ⟨change q, (h.id_eq before.mem.1).trans own, (h.stuck distinct before.mem.1).mpr stuck, ?_⟩
      exact (h.precedes distinct hr).mpr ⟨q, rfl, before⟩
  simp only [CrowdedOut, same]

/-- A row is not among those that a batch takes if enough rows before it wait in any case. -/
theorem not_taken_of_crowdedOut (calm : s.Calm) (distinct : (s.records.map (·.id)).Nodup)
    {r : OutboxRecord} (crowded : relay.CrowdedOut poison s.records r) :
    r ∉ s.available.take relay.batchSize := by
  intro taken
  obtain ⟨front, back, split⟩ := List.append_of_mem taken
  obtain ⟨ids, nodup, full, before⟩ := crowded
  have inside : ids ⊆ front.map (·.id) := by
    intro id hid
    obtain ⟨q, rfl, stuck, order⟩ := before id hid
    have hq := (OutboxStore.mem_available_of_free calm.free).mpr ⟨order.mem.1, stuck.1⟩
    exact List.mem_map_of_mem (OutboxStore.mem_front_of_precedes distinct split order hq)
  have few := (List.subperm_of_subset nodup inside).length_le
  have size : (s.available.take relay.batchSize).length ≤ relay.batchSize := List.length_take_le _ _
  rw [split] at size
  simp only [List.length_map, List.length_append, List.length_cons] at few size
  omega

/-- A batch that does not take a row which waits has done with another one, unless the row is crowded out. -/
theorem exists_free_of_not_taken (calm : s.Calm) (distinct : (s.records.map (·.id)).Nodup)
    {r : OutboxRecord} (hr : r ∈ s.records) (waits : r.processedAt = none)
    (missed : r ∉ s.available.take relay.batchSize)
    (room : ¬ relay.CrowdedOut poison s.records r) :
    ∃ q ∈ s.available.take relay.batchSize, ¬ relay.Stuck poison s.records q := by
  by_contra! stuck
  have queued := (OutboxStore.mem_available_of_free calm.free).mpr ⟨hr, waits⟩
  have behind : r ∈ s.available.drop relay.batchSize := by
    rw [← List.take_append_drop relay.batchSize s.available] at queued
    exact (List.mem_append.mp queued).resolve_left missed
  have ordered := OutboxStore.available_ordered distinct
  rw [← List.take_append_drop relay.batchSize s.available] at ordered
  have before := fun q hq => (List.pairwise_append.mp ordered).2.2 q hq r behind
  refine room ⟨(s.available.take relay.batchSize).map (·.id), ?_, ?_, ?_⟩
  · have once := (OutboxStore.nodup_available distinct).sublist (List.take_sublist relay.batchSize _)
    refine once.map_on fun a ha b hb => ?_
    exact List.inj_on_of_nodup_map distinct (before a ha).mem.1 (before b hb).mem.1
  · rw [List.length_map, List.length_take]
    have := List.length_pos_of_mem behind
    rw [List.length_drop] at this
    omega
  · intro id hid
    obtain ⟨q, hq, rfl⟩ := List.mem_map.mp hid
    exact ⟨q, rfl, stuck q hq, before q hq⟩

theorem Works.pending_lt (h : relay.Works poison s t change) {q : OutboxRecord} (hq : q ∈ s.records)
    (waits : q.processedAt = none) (done : (change q).processedAt ≠ none) :
    t.pending.length < s.pending.length := by
  have left : t.pending.length = (s.pending.filter fun r => (change r).isPending).length := by
    rw [OutboxStore.pending, h.records, ← List.countP_eq_length_filter, List.countP_map,
      List.countP_eq_length_filter, OutboxStore.pending, List.filter_filter]
    congr 1
    apply List.filter_congr
    intro r hr
    rw [Bool.eq_iff_iff]
    simp only [Function.comp_apply, OutboxRecord.isPending, Bool.and_eq_true, Option.isNone_iff_eq_none]
    exact ⟨fun still => ⟨still, ((h.waits r hr).mp still).1⟩, And.left⟩
  rw [left, List.length_filter_lt_length_iff_exists]
  refine ⟨q, List.mem_filter.mpr ⟨hq, ?_⟩, ?_⟩
  · simp [OutboxRecord.isPending, waits]
  · simpa [OutboxRecord.isPending] using done

end change

/-- What becomes of a row over some batches. -/
structure Becomes (relay : Relay σ γ) (poison : Uuid → Prop) (s : OutboxStore) (batches : Nat)
    (r q : OutboxRecord) : Prop where
  id : q.id = r.id
  done : r.processedAt ≠ none → q.processedAt ≠ none
  kept : r.processedAt = none → relay.Stuck poison s.records r ∨ relay.CrowdedOut poison s.records r →
    q.processedAt = none
  served : ¬ relay.Stuck poison s.records r → ¬ relay.CrowdedOut poison s.records r →
    s.pending.length ≤ batches → q.processedAt ≠ none

theorem run_batches (times : List Instant) {w : RelayWorld σ}
    (refuses : relay.RefusesJust poison (w.store.records.map (·.toNewRecord))) (calm : w.store.Calm)
    (distinct : (w.store.records.map (·.id)).Nodup) {r : OutboxRecord}
    (hr : r ∈ w.store.records) :
    ((relay.run w (times.map .batch)).store.records.map (·.id)).Nodup ∧
      ∃ q ∈ (relay.run w (times.map .batch)).store.records,
        relay.Becomes poison w.store times.length r q := by
  induction times generalizing w r with
  | nil =>
    refine ⟨distinct, r, hr, rfl, fun done => done, fun waits _ => waits, ?_⟩
    intro _ _ none_left waits
    have pending : r ∈ w.store.pending := by simp [OutboxStore.pending, OutboxRecord.isPending, hr, waits]
    have := List.length_pos_of_mem pending
    simp only [List.length_nil] at none_left
    omega
  | cons now times ih =>
    let v := relay.after w (.batch now)
    obtain ⟨change, works⟩ : ∃ change, relay.Works poison w.store v.store change := by
      have refuses' : (relay.at_ now).RefusesJust poison (w.store.records.map (·.toNewRecord)) :=
        ⟨refuses.store, refuses.accepts⟩
      obtain ⟨change, works⟩ := runBatch_works refuses' calm distinct
      exact ⟨change, works.calm, works.records, works.written, works.waits⟩
    have hr' : change r ∈ v.store.records := works.records ▸ List.mem_map_of_mem hr
    obtain ⟨distinct', q, hq, later⟩ := ih (works.written_eq ▸ refuses) works.calm
      (works.distinct distinct) hr'
    have stuck := works.stuck distinct hr
    have crowded := works.crowdedOut distinct hr
    refine ⟨distinct', q, hq, later.id.trans (works.id_eq hr), ?_, ?_, ?_⟩
    · intro done
      refine later.done fun waits => done ?_
      exact ((works.waits r hr).mp waits).1
    · intro waits still
      refine later.kept ?_ (by rwa [stuck, crowded])
      refine (works.waits r hr).mpr ⟨waits, fun taken => ?_⟩
      rcases still with still | still
      · exact still
      · exact absurd taken (not_taken_of_crowdedOut calm distinct still)
    · intro free room few
      by_cases waits : (change r).processedAt = none
      · refine later.served (stuck.not.mpr free) (crowded.not.mpr room) ?_
        obtain ⟨waited, missed⟩ := (works.waits r hr).mp waits
        obtain ⟨p, taken, loose⟩ := exists_free_of_not_taken calm distinct hr waited
          (fun taken => free (missed taken)) room
        have mem := (OutboxStore.mem_available_of_free calm.free).mp (List.mem_of_mem_take taken)
        have fewer := works.pending_lt mem.1 mem.2
          (fun still => loose (((works.waits p mem.1).mp still).2 taken))
        simp only [List.length_cons] at few
        omega
      · exact later.done waits

theorem run_finds (times : List Instant) {w : RelayWorld σ}
    (refuses : relay.RefusesJust poison (w.store.records.map (·.toNewRecord))) (calm : w.store.Calm)
    (distinct : (w.store.records.map (·.id)).Nodup) {r : OutboxRecord} (hr : r ∈ w.store.records) :
    ∃ q, (relay.run w (times.map .batch)).store.find? r.id = some q ∧
      relay.Becomes poison w.store times.length r q := by
  obtain ⟨single, q, hq, becomes⟩ := run_batches times refuses calm distinct hr
  exact ⟨q, becomes.id ▸ OutboxStore.find?_of_mem single hq, becomes⟩

/-- Which rows are processed after as many batches as there are rows, where some are always refused: those
that are not stuck, unless rows that are stuck fill a whole batch before them. -/
theorem serves_unless_crowded_out (relay : Relay σ γ) (poison : Uuid → Prop) (start : RelayWorld σ)
    (refuses : relay.RefusesJust poison (start.store.records.map (·.toNewRecord)))
    (calm : start.store.Calm) (distinct : (start.store.records.map (·.id)).Nodup)
    (times : List Instant) (enough : start.store.records.length ≤ times.length) (r : OutboxRecord)
    (hr : r ∈ start.store.records) :
    ∃ q, (relay.run start (times.map .batch)).store.find? r.id = some q ∧
      (q.processedAt ≠ none ↔ r.processedAt ≠ none ∨
        ¬ relay.Stuck poison start.store.records r ∧
          ¬ relay.CrowdedOut poison start.store.records r) := by
  obtain ⟨q, found, becomes⟩ := run_finds times refuses calm distinct hr
  refine ⟨q, found, ?_⟩
  have few : start.store.pending.length ≤ times.length :=
    Nat.le_trans (List.length_filter_le _ _) enough
  constructor
  · intro done
    by_cases waits : r.processedAt = none
    · right
      constructor
      · exact fun stuck => done (becomes.kept waits (.inl stuck))
      · exact fun crowded => done (becomes.kept waits (.inr crowded))
    · exact .inl waits
  · rintro (done | ⟨free, room⟩)
    · exact becomes.done done
    · exact becomes.served free room few

/-- A relay with one handler that refuses everything and one that accepts everything. -/
def halfBroken (batchSize : Nat) : Relay Unit Bool where
  registry := (HandlerRegistry.empty.register "todo.failing" true).register "todo.created" false
  handle broken _ w := (if broken then .refused "boom" else .accepted, w)
  batchSize := batchSize
  now := firstRow.createdAt

def failingRow : OutboxRecord := .ofNew { firstRow with eventType := "todo.failing" }

def otherRow : OutboxRecord := .ofNew { firstRow with id := ⟨2⟩, aggregateId := ⟨8⟩ }

/-- A row that is refused, and behind it a row of another aggregate. -/
def failingFirst : RelayWorld Unit := ⟨⟨[failingRow, otherRow], [], false, .none⟩, [], ()⟩

theorem halfBroken_refuses (batchSize : Nat) :
    (halfBroken batchSize).RefusesJust (· = ⟨1⟩)
      (failingFirst.store.records.map (·.toNewRecord)) := by
  refine ⟨fun _ _ _ => rfl, ?_⟩
  intro handler r w known wanted
  have rows : r.toNewRecord = failingRow.toNewRecord ∨ r.toNewRecord = otherRow.toNewRecord := by
    simpa [failingFirst] using known
  rcases rows with row | row <;> rw [row] at wanted ⊢
  · obtain rfl : true = handler := Option.some.inj wanted
    simp [halfBroken, failingRow, OutboxRecord.ofNew, firstRow]
  · obtain rfl : false = handler := Option.some.inj wanted
    simp [halfBroken, otherRow, OutboxRecord.ofNew]

theorem failing_precedes : Precedes failingFirst.store.records failingRow otherRow :=
  ⟨0, 1, rfl, rfl, .inr ⟨rfl, by omega⟩⟩

theorem other_crowded_out : (halfBroken 1).CrowdedOut (· = ⟨1⟩) failingFirst.store.records otherRow := by
  have stuck : (halfBroken 1).Stuck (· = ⟨1⟩) failingFirst.store.records failingRow :=
    ⟨rfl, failingRow, .inl rfl, rfl, rfl, true, rfl⟩
  refine ⟨[⟨1⟩], by decide, rfl, ?_⟩
  intro id hid
  obtain rfl := List.mem_singleton.mp hid
  exact ⟨failingRow, rfl, stuck, failing_precedes⟩

/-- With room for one row in a batch the row of the other aggregate waits in vain. -/
theorem serves_unless_crowded_out_behind :
    ∃ q, ((halfBroken 1).run failingFirst
        ([firstRow.createdAt, firstRow.createdAt].map .batch)).store.find? ⟨2⟩ = some q ∧
      q.processedAt = none := by
  obtain ⟨q, found, served⟩ := serves_unless_crowded_out (halfBroken 1) (· = ⟨1⟩) failingFirst
    (halfBroken_refuses 1) ⟨rfl, rfl, rfl⟩ (by decide) [firstRow.createdAt, firstRow.createdAt]
    (by decide) otherRow (by decide)
  refine ⟨q, found, ?_⟩
  by_contra done
  rcases served.mp done with old | ⟨-, room⟩
  · exact old rfl
  · exact room other_crowded_out

/-- It is not so that a row which is refused never holds up rows of other aggregates. -/
theorem refused_row_holds_up_others :
    ¬ ∀ (relay : Relay Unit Bool) (poison : Uuid → Prop) (start : RelayWorld Unit)
      (times : List Instant) (r : OutboxRecord), 1 ≤ relay.batchSize →
      relay.RefusesJust poison (start.store.records.map (·.toNewRecord)) → start.store.Calm →
      (start.store.records.map (·.id)).Nodup → start.store.records.length ≤ times.length →
      r ∈ start.store.records → ¬ poison r.id →
      (∀ q, Precedes start.store.records q r → q.aggregateId = r.aggregateId → ¬ poison q.id) →
      ∃ q, (relay.run start (times.map .batch)).store.find? r.id = some q ∧ q.processedAt ≠ none := by
  intro claim
  have calm : failingFirst.store.Calm := ⟨rfl, rfl, rfl⟩
  obtain ⟨q, found, done⟩ := claim (halfBroken 1) (· = ⟨1⟩) failingFirst
    [firstRow.createdAt, firstRow.createdAt] otherRow (by decide) (halfBroken_refuses 1) calm
    (by decide) (by decide) (by decide) (by decide) (by
      intro p order same poisoned
      have rows : p = failingRow ∨ p = otherRow := by simpa [failingFirst] using order.mem.1
      rcases rows with rfl | rfl
      · exact absurd same (by decide)
      · exact absurd poisoned (by decide))
  obtain ⟨p, found', becomes⟩ := run_finds [firstRow.createdAt, firstRow.createdAt]
    (halfBroken_refuses 1) calm (by decide) (r := otherRow) (by decide)
  obtain rfl : p = q := Option.some.inj (found'.symm.trans found)
  exact done (becomes.kept rfl (.inr other_crowded_out))

end Workboard.Relay
