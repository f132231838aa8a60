import Mathlib.Data.List.Perm.Lattice
import Workboard.Proofs.Relay.Progress
import Workboard.Proofs.Relay.Turns

/-!
A batch does what its report says. What it took, which handlers it called and what it wrote all go by its turns,
and the report counts those. Where it commits, each of its rows is as its turn leaves it and all others are as they
were, so that as many rows wait no longer as the batch is done with; where it ends with an error, it has written
nothing.
-/

namespace Workboard

variable {σ γ : Type} {relay : Relay σ γ}

/-- Rows of the outbox that wait, none of them twice. -/
structure AreWaiting (records rows : List OutboxRecord) : Prop where
  nodup : rows.Nodup
  waits : ∀ r ∈ rows, r ∈ records ∧ r.processedAt = none

theorem OutboxStore.areWaiting_take {s : OutboxStore} (distinct : (s.records.map (·.id)).Nodup) (limit : Nat) :
    AreWaiting s.records (s.available.take limit) where
  nodup := (nodup_available distinct).sublist (List.take_sublist limit _)
  waits r mem := by
    obtain ⟨row, pending, -⟩ := mem_available.mp (List.mem_of_mem_take mem)
    exact ⟨row, Option.isNone_iff_eq_none.mp pending⟩

theorem RowUpdate.on_of_ne {r : OutboxRecord} {u : RowUpdate} (other : u.id ≠ r.id) : RowUpdate.on r u = r := by
  cases u <;> exact if_neg (Ne.symm other)

namespace OutboxRecord

/-- Marks on other rows leave a row as it is. -/
theorem marked_of_others {updates : List RowUpdate} {r : OutboxRecord} (others : ∀ u ∈ updates, u.id ≠ r.id) :
    r.marked updates = r := by
  induction updates with
  | nil => rfl
  | cons u updates ih =>
    obtain ⟨first, rest⟩ := List.forall_mem_cons.mp others
    show (RowUpdate.on r u).marked updates = r
    rw [RowUpdate.on_of_ne first]
    exact ih rest

variable {now : Instant} {r : OutboxRecord} {t : Turn} {turns : List (OutboxRecord × Turn)}

theorem after_cons_self : r.after now ((r, t) :: turns) = t.leave now r := by simp [after]

theorem after_cons_of_ne {q : OutboxRecord} (other : q.id ≠ r.id) :
    r.after now ((q, t) :: turns) = r.after now turns := by
  simp [after, other]

@[simp] theorem after_written : (r.after now turns).toNewRecord = r.toNewRecord := by
  unfold after
  split
  next e _ => rcases e with ⟨q, _ | _ | (_ | _ | _)⟩ <;> rfl
  next => rfl

/-- The marks of turns do to a row what its turn leaves of it. -/
theorem marked_updates (single : (turns.map (·.1.id)).Nodup) (own : ∀ e ∈ turns, e.1.id = r.id → e.1 = r)
    (waits : ∀ e ∈ turns, e.1.processedAt = none) :
    r.marked (turns.filterMap fun e => e.2.update now e.1) = r.after now turns := by
  induction turns with
  | nil => rfl
  | cons e turns ih =>
    obtain ⟨q, t⟩ := e
    obtain ⟨first, rest⟩ := List.forall_mem_cons.mp own
    obtain ⟨waiting, waits⟩ := List.forall_mem_cons.mp waits
    obtain ⟨fresh, single⟩ := List.nodup_cons.mp single
    have split : r.marked (((q, t) :: turns).filterMap fun e => e.2.update now e.1) =
        OutboxRecord.marked (turns.filterMap fun e => e.2.update now e.1)
          (r.marked (t.update now q).toList) := by
      rw [marked, marked, marked, ← List.foldl_append]
      cases mark : t.update now q <;> simp [mark]
    rw [split]
    -- a row has one turn at most, so what is marked behind its own turn is marked on others
    by_cases same : q.id = r.id
    · obtain rfl : q = r := first same
      have left : (t.leave now q).id = q.id := by rcases t with _ | _ | (_ | _ | _) <;> rfl
      have finished : q.marked (t.update now q).toList = t.leave now q := Turn.foldl_on_update now waiting t
      rw [after_cons_self, finished]
      refine marked_of_others fun u mem => ?_
      obtain ⟨e, later, mark⟩ := List.mem_filterMap.mp mem
      rw [Turn.update_id mark, left]
      exact fun again => fresh (List.mem_map.mpr ⟨e, later, again⟩)
    · have untouched : r.marked (t.update now q).toList = r := marked_of_others fun u mem => by
        rw [Turn.update_id (Option.mem_toList.mp mem)]
        exact same
      rw [after_cons_of_ne same, untouched]
      exact ih single rest waits

end OutboxRecord

section committed

variable {records : List OutboxRecord} {turns : List (OutboxRecord × Turn)} {now : Instant}

theorem AreWaiting.after_eq (waiting : AreWaiting records (turns.map (·.1))) (distinct : (records.map (·.id)).Nodup)
    {r : OutboxRecord} (hr : r ∈ records) :
    r.marked (turns.filterMap fun e => e.2.update now e.1) = r.after now turns := by
  have known : ∀ e ∈ turns, e.1 ∈ records ∧ e.1.processedAt = none := fun e mem =>
    waiting.waits e.1 (List.mem_map_of_mem mem)
  refine OutboxRecord.marked_updates ?_ ?_ fun e mem => (known e mem).2
  · have single := waiting.nodup.map_on fun q hq r hr same =>
      List.inj_on_of_nodup_map distinct (waiting.waits q hq).1 (waiting.waits r hr).1 same
    simpa [Function.comp_def] using single
  · exact fun e mem same => List.inj_on_of_nodup_map distinct (known e mem).1 hr same

/-- A row waits behind a commit if it did before and no turn was done with it. -/
theorem AreWaiting.after_waits (waiting : AreWaiting records (turns.map (·.1)))
    (distinct : (records.map (·.id)).Nodup) {r : OutboxRecord} (hr : r ∈ records) :
    (r.after now turns).processedAt = none ↔ r.processedAt = none ∧ ∀ t, (r, t) ∈ turns → ¬ t.Done := by
  rw [← waiting.after_eq distinct hr, OutboxRecord.marked_waits]
  refine and_congr_right fun _ => ⟨fun unmarked t mem done => ?_, fun undone at_ mem => ?_⟩
  · exact unmarked now (List.mem_filterMap.mpr ⟨_, mem, Turn.update_processed.mpr ⟨done, rfl, rfl⟩⟩)
  · obtain ⟨⟨q, t⟩, turn, mark⟩ := List.mem_filterMap.mp mem
    obtain ⟨done, same, -⟩ := Turn.update_processed.mp mark
    have stored := (waiting.waits q (List.mem_map_of_mem turn)).1
    obtain rfl : r = q := List.inj_on_of_nodup_map distinct hr stored same
    exact undone t turn done

/-- A commit is done with as many rows as its report counts as processed or skipped. -/
theorem AreWaiting.pending_eq (waiting : AreWaiting records (turns.map (·.1)))
    (distinct : (records.map (·.id)).Nodup) :
    (records.filter (·.isPending)).length = ((records.map (·.after now turns)).filter (·.isPending)).length +
      ((BatchReport.ofTurns turns).processed + (BatchReport.ofTurns turns).skipped) := by
  -- of the rows that wait, some are done with now, as many as there are turns that say so, and the others wait on
  let done := (turns.filter fun e => e.2.outcome = some .processed ∨ e.2.outcome = some .skipped).map (·.1)
  have mem_done (r : OutboxRecord) : r ∈ done ↔ ∃ t, (r, t) ∈ turns ∧ t.Done := by
    simp [done, Turn.done_iff_outcome]
  have counted : done.length = (BatchReport.ofTurns turns).processed + (BatchReport.ofTurns turns).skipped := by
    rw [List.length_map, ← List.countP_eq_length_filter, BatchReport.ofTurns_done]
  have left : ((records.map (·.after now turns)).filter (·.isPending)).length =
      ((records.filter (·.isPending)).filter fun r => !decide (r ∈ done)).length := by
    rw [List.filter_map, List.length_map, List.filter_filter]
    congr 1
    refine List.filter_congr fun r hr => ?_
    have still : (r.after now turns).processedAt = none ↔ _ := waiting.after_waits distinct hr
    rw [Bool.eq_iff_iff]
    simp only [Function.comp_apply, OutboxRecord.isPending, Option.isNone_iff_eq_none, Bool.and_eq_true,
      Bool.not_eq_true', decide_eq_false_iff_not, mem_done, still]
    grind
  have gone : ((records.filter (·.isPending)).filter fun r => decide (r ∈ done)).Perm done := by
    refine (List.perm_ext_iff_of_nodup ?_ ?_).mpr fun r => ?_
    · exact ((List.Nodup.of_map _ distinct).filter _).filter _
    · exact waiting.nodup.sublist (List.filter_sublist.map _)
    · simp only [List.mem_filter, decide_eq_true_eq, and_iff_right_iff_imp, mem_done]
      rintro ⟨t, turn, -⟩
      obtain ⟨stored, waits⟩ := waiting.waits r (List.mem_map_of_mem turn)
      exact ⟨stored, by simp [OutboxRecord.isPending, waits]⟩
  rw [left, ← counted, ← gone.length_eq, Nat.add_comm]
  exact List.length_eq_length_filter_add _

/-- What a batch commits is what its turns leave of the rows. -/
theorem Batch.Underway.committed {b : Batch} {fetched : Nat} (h : b.Underway relay fetched turns) {s t : OutboxStore}
    {writes : List Empty} (waiting : AreWaiting s.records (turns.map (·.1)))
    (distinct : (s.records.map (·.id)).Nodup) (committed : s.tryCommit b.tx = (.ok writes, t)) :
    t.records = s.records.map (·.after relay.now turns) := by
  rw [(OutboxStore.tryCommit_ok committed).2, OutboxStore.written, h.appended, h.updates, List.map_nil,
    List.append_nil, OutboxStore.foldl_apply_eq_map distinct]
  exact List.map_congr_left fun r hr => waiting.after_eq distinct hr

end committed

/-- The rows that may be taken now, in the order in which they are due. -/
structure OutboxStore.Queue (s : OutboxStore) (queue : List OutboxRecord) : Prop where
  mem : ∀ r, r ∈ queue ↔ r ∈ s.records ∧ r.processedAt = none ∧ r.id ∉ s.claimed
  once : queue.Nodup
  ordered : queue.Pairwise (Precedes s.records)

theorem OutboxStore.queue_available {s : OutboxStore} (distinct : (s.records.map (·.id)).Nodup) :
    s.Queue s.available where
  mem r := by rw [mem_available, OutboxRecord.isPending, Option.isNone_iff_eq_none]
  once := nodup_available distinct
  ordered := available_ordered distinct

namespace Relay

/-- What turns say of a batch that has committed: its report, the rows that it took, what became of all rows of the
outbox, and which handlers were called. -/
structure Accounts (relay : Relay σ γ) (w : RelayWorld σ) (turns : List (OutboxRecord × Turn)) (report : BatchReport)
    (v : RelayWorld σ) : Prop where
  counted : report = .ofTurns turns
  total : report.fetched = report.processed + report.failed + report.skipped + report.deferred
  taken : ∃ queue, w.store.Queue queue ∧ turns.map (·.1) = queue.take relay.batchSize
  fair : relay.TakesTurns turns
  written : v.store.records = w.store.records.map (·.after relay.now turns)
  handled : relay.Handles w.state (Turn.handedOver turns) v.state
  once : ((Turn.handedOver turns).map (·.1)).Nodup
  called : ∀ r t, (r, t) ∈ turns →
    (r ∈ (Turn.handedOver turns).map (·.1) ↔ t ≠ .deferred ∧ relay.registry.get? r.eventType ≠ none)

variable {w v : RelayWorld σ} {turns : List (OutboxRecord × Turn)}

theorem begin_report {s t : OutboxStore} {rows : List OutboxRecord} {b : Batch}
    (begun : relay.begin s = (.ok (rows, b), t)) : b.report = ⟨rows.length, 0, 0, 0, 0⟩ := by
  unfold begin at begun
  split at begun
  · cases begun
  · split at begun
    · cases begun
    · split at begun <;> cases begun
      rfl

theorem begin_underway {s t : OutboxStore} {rows : List OutboxRecord} {b : Batch}
    (begun : relay.begin s = (.ok (rows, b), t)) : b.Underway relay rows.length [] := by
  have taken := relay.begin_takes s
  have written := (relay.begin_writes s).2
  rw [begun] at taken written
  obtain ⟨updates, appended⟩ := written rows b rfl
  refine ⟨begin_report begun, updates, appended, ?_, ?_, ?_⟩
  · simp [taken.2.1]
  · intro before r t after split
    simp at split
  · intro r t mem
    cases mem

theorem TakesTurns.called (h : relay.TakesTurns turns) (once : (turns.map (·.1)).Nodup) {r : OutboxRecord} {t : Turn}
    (turn : (r, t) ∈ turns) :
    r ∈ (Turn.handedOver turns).map (·.1) ↔ t ≠ .deferred ∧ relay.registry.get? r.eventType ≠ none := by
  constructor
  · intro handed
    obtain ⟨⟨q, d⟩, mem, rfl⟩ := List.mem_map.mp handed
    have same : (q, t) = (q, .handed d) :=
      List.inj_on_of_nodup_map once turn (Turn.mem_handedOver.mp mem) rfl
    obtain rfl : t = .handed d := congrArg (·.2) same
    have skipped := h.skipped q (.handed d) turn nofun
    exact ⟨nofun, fun unwanted => nomatch skipped.mpr unwanted⟩
  · rintro ⟨notDeferred, wanted⟩
    have skipped := h.skipped r t turn notDeferred
    cases t with
    | deferred => exact absurd rfl notDeferred
    | skipped => exact absurd (skipped.mp rfl) wanted
    | handed d => exact List.mem_map.mpr ⟨(r, d), Turn.mem_handedOver.mpr turn, rfl⟩

theorem accounts_of_ok (leaves : relay.LeavesRows) (distinct : (w.store.records.map (·.id)).Nodup)
    {report : BatchReport} (ran : relay.runBatch w = (turns, .ok report, v)) : relay.Accounts w turns report v := by
  obtain ⟨rows, b, s, c, u, writes, begun, delivered, committed, rfl⟩ := runBatch_ok ran
  have takes := relay.begin_takes w.store
  have begins := (relay.begin_writes w.store).1
  have delivers := Batch.deliver_records leaves rows b { w with store := s }
  have handles := relay.runBatch_handles w
  rw [begun] at takes begins
  rw [delivered] at delivers
  rw [ran] at handles
  obtain ⟨rfl, -, -⟩ := takes
  obtain ⟨underway, order⟩ := (begin_underway begun).deliver _ delivered
  rw [List.nil_append] at underway
  have rows : u.store.records = w.store.records := delivers.trans begins
  have waiting : AreWaiting w.store.records (turns.map (·.1)) := order ▸ OutboxStore.areWaiting_take distinct _
  have report : c.report = .ofTurns turns := by
    rw [underway.report, ← order, List.length_map]
    rfl
  refine ⟨report, ?_, ⟨_, OutboxStore.queue_available distinct, order⟩, underway.turns, ?_, handles, ?_, ?_⟩
  · rw [report]
    exact BatchReport.ofTurns_total turns
  · rw [← rows]
    exact underway.committed (rows ▸ waiting) (rows ▸ distinct) committed
  · exact waiting.nodup.sublist (Turn.handedOver_sublist turns)
  · exact fun r t turn => underway.turns.called waiting.nodup turn

/-- A batch succeeds where nothing is to fail. -/
theorem processBatch_of_calm (keeps : ∀ handler r v, (relay.handle handler r v).2.store = v.store)
    (calm : w.store.faults = .none) (commits : w.store.failCommits = false) :
    ∃ report, (relay.processBatch w).1 = .ok report := by
  let rows := w.store.available.take relay.batchSize
  let taken := w.store.fetchPending (.empty : Transaction Empty) relay.batchSize
  have held : ∀ r ∈ rows, r.id ∈ (Batch.start taken.2.2 rows).tx.claimed := fun r mem =>
    List.mem_append_right _ (List.mem_map_of_mem mem)
  obtain ⟨turns, c, v, delivered, store⟩ :=
    Batch.deliver_of_calm keeps rows (w := { w with store := taken.2.1 }) calm held
  have still : v.store.faults = .none := (congrArg OutboxStore.faults store).trans calm
  have goes : v.store.failCommits = false := (congrArg OutboxStore.failCommits store).trans commits
  have committed := OutboxStore.tryCommit_calm still goes c.tx
  have begun : relay.begin w.store = (.ok (rows, .start taken.2.2 rows), taken.2.1) := begin_of_calm relay calm
  refine ⟨c.report, ?_⟩
  simp only [processBatch, runBatch, begun, delivered, committed]

/-- A batch does exactly what its report says. Whatever rows there are, however handlers answer and whichever calls
of the outbox fail: if the batch succeeds, its turns account for the report, the rows and the calls of handlers; if
it does not, all rows are as they were; it never holds on to a row, and it succeeds if nothing is to fail. -/
theorem batch_does_what_it_reports (relay : Relay σ γ) (leaves : relay.LeavesRows) (claims : relay.LeavesClaims)
    (w : RelayWorld σ) (distinct : (w.store.records.map (·.id)).Nodup) :
    (∀ report, (relay.processBatch w).1 = .ok report →
      relay.Accounts w (relay.runBatch w).1 report (relay.processBatch w).2) ∧
    (∀ e, (relay.processBatch w).1 = .error e → (relay.processBatch w).2.store.records = w.store.records) ∧
    (relay.processBatch w).2.store.claimed = w.store.claimed ∧
    ((∀ handler r v, (relay.handle handler r v).2.store = v.store) → w.store.faults = .none →
      w.store.failCommits = false → ∃ report, (relay.processBatch w).1 = .ok report) := by
  refine ⟨fun report ok => ?_, fun e failed => runBatch_error leaves failed, runBatch_claimed claims w,
    processBatch_of_calm⟩
  refine accounts_of_ok leaves distinct ?_
  rw [← ok]
  rfl

/-- A row of each kind, and one more than a batch of four takes. -/
def mixedRows : List OutboxRecord :=
  [failingRow, otherRow, .ofNew { firstRow with id := ⟨3⟩ },
    .ofNew { firstRow with id := ⟨4⟩, aggregateId := ⟨9⟩, eventType := "todo.unknown" },
    .ofNew { firstRow with id := ⟨5⟩, aggregateId := ⟨10⟩ }]

def mixedWorld : RelayWorld Unit := ⟨⟨mixedRows, [], false, .none⟩, [], ()⟩

def mixedTurns : List (OutboxRecord × Turn) :=
  mixedRows.zip [.handed (.refused "boom"), .handed .accepted, .deferred, .skipped]

theorem batch_does_what_it_reports_mixed :
    ((halfBroken 4).processBatch mixedWorld).1 = .ok ⟨4, 1, 1, 1, 1⟩ ∧
      (halfBroken 4).Accounts mixedWorld mixedTurns ⟨4, 1, 1, 1, 1⟩ ((halfBroken 4).processBatch mixedWorld).2 := by
  have queue : mixedWorld.store.available = mixedRows := OutboxStore.available_of_pairwise (by decide)
  have ran : ((halfBroken 4).runBatch mixedWorld).1 = mixedTurns ∧
      ((halfBroken 4).processBatch mixedWorld).1 = .ok ⟨4, 1, 1, 1, 1⟩ := by
    rw [processBatch, runBatch, begin_of_calm (halfBroken 4) rfl, OutboxStore.fetchPending, queue]
    exact ⟨rfl, rfl⟩
  obtain ⟨accounts, -⟩ :=
    batch_does_what_it_reports (halfBroken 4) (fun _ _ _ => rfl) (fun _ _ _ => rfl) mixedWorld (by decide)
  have told := accounts _ ran.2
  rw [ran.1] at told
  exact ⟨ran.2, told⟩

end Relay

end Workboard
