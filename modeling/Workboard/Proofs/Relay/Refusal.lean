import Workboard.Proofs.Relay.Order
import Workboard.Proofs.Outbox.Marks

/-!
Batches in which handlers refuse some rows every time and nothing else fails. A row is done with unless it is
refused, or one of its aggregate was refused before it in the batch.
-/

namespace Workboard

variable {σ γ : Type}

namespace Relay

/-- Of the rows that were written, handlers refuse those of a set whenever they get them and accept all
others; they leave the outbox alone. -/
structure RefusesJust (relay : Relay σ γ) (poison : Uuid → Prop) (written : List NewRecord) : Prop where
  store : ∀ handler r w, (relay.handle handler r w).2.store = w.store
  accepts : ∀ handler r w, r.toNewRecord ∈ written → relay.registry.get? r.eventType = some handler →
    ((relay.handle handler r w).1 = .accepted ↔ ¬ poison r.id)

/-- A row of the set that is handed over. A row that no handler wants is not refused by anyone. -/
def Refused (relay : Relay σ γ) (poison : Uuid → Prop) (r : OutboxRecord) : Prop :=
  poison r.id ∧ ∃ handler, relay.registry.get? r.eventType = some handler

end Relay

/-- The mark that a turn leaves on its row. -/
def Turn.update (now : Instant) (r : OutboxRecord) : Turn → Option RowUpdate
  | .deferred => none
  | .skipped => some (.processed r.id now)
  | .handed d =>
    match Batch.failureText d with
    | none => some (.processed r.id now)
    | some text => some (.failed r.id text)

theorem Turn.update_processed {now later : Instant} {r : OutboxRecord} {id : Uuid} {t : Turn} :
    t.update now r = some (.processed id later) ↔ t.Done ∧ id = r.id ∧ later = now := by
  cases t with
  | deferred => simp [update, Done]
  | skipped => simp [update, Done, eq_comm]
  | handed d => cases d <;> simp [update, Done, Batch.failureText, eq_comm]

/-- Rows of a batch get the mark of being processed if their turns are done with them, and no other rows do.
-/
theorem Turn.unmarked_iff {records : List OutboxRecord} (distinct : (records.map (·.id)).Nodup)
    {turns : List (OutboxRecord × Turn)} (known : ∀ e ∈ turns, e.1 ∈ records) {P : OutboxRecord → Prop}
    (done : ∀ e ∈ turns, e.2.Done ↔ ¬ P e.1) (now : Instant) {r : OutboxRecord} (hr : r ∈ records) :
    (∀ at_, RowUpdate.processed r.id at_ ∉ turns.filterMap fun e => e.2.update now e.1) ↔
      (r ∈ turns.map (·.1) → P r) := by
  constructor
  · intro unmarked taken
    obtain ⟨e, he, rfl⟩ := List.mem_map.mp taken
    by_contra free
    exact unmarked now (List.mem_filterMap.mpr ⟨e, he,
      Turn.update_processed.mpr ⟨(done e he).mpr free, rfl, rfl⟩⟩)
  · intro left at_ marked
    obtain ⟨e, he, mark⟩ := List.mem_filterMap.mp marked
    obtain ⟨finished, same, -⟩ := Turn.update_processed.mp mark
    obtain rfl : r = e.1 := List.inj_on_of_nodup_map distinct hr (known e he) same
    exact (done e he).mp finished (left (List.mem_map_of_mem he))

namespace Batch

variable {relay : Relay σ γ} {poison : Uuid → Prop} {written : List NewRecord} {b : Batch}
  {w : RelayWorld σ}

/-- What a turn does when nothing fails: a row is done with unless it is refused or blocked, and a row that is
refused blocks its aggregate. -/
theorem next_calm (refuses : relay.RefusesJust poison written) (calm : w.store.faults = .none)
    {r : OutboxRecord} (known : r.toNewRecord ∈ written) (held : r.id ∈ b.tx.claimed) :
    ∃ t c v, b.next relay r w = (t, .ok c, v) ∧ v.store = w.store ∧
      c.tx = { b.tx with updates := b.tx.updates ++ (t.update relay.now r).toList } ∧
      (t.Done ↔ ¬ relay.Refused poison r ∧ r.aggregateId ∉ b.blocked) ∧
      ∀ a, a ∈ c.blocked ↔ a ∈ b.blocked ∨ relay.Refused poison r ∧ r.aggregateId = a := by
  by_cases blocked : r.aggregateId ∈ b.blocked
  · refine ⟨_, _, _, next_of_blocked blocked w, rfl, ?_, ?_, ?_⟩
    · simp [Turn.update, defer]
    · simp [Turn.Done, blocked]
    · intro a
      constructor
      · exact .inl
      · rintro (old | ⟨-, rfl⟩)
        · exact old
        · exact blocked
  rcases wanted : relay.registry.get? r.eventType with _ | handler
  · have plan : b.plan relay.registry r = .skip := by simp [Batch.plan, blocked, wanted]
    have accepted : ¬ relay.Refused poison r := by simp [Relay.Refused, wanted]
    have turn : b.next relay r w = (.skipped, b.skip relay.now r w) := by rw [next, plan]
    rw [skip, OutboxStore.tryMark_calm calm (.processed r.id relay.now) held] at turn
    exact ⟨_, _, _, turn, rfl, rfl, by simp [Turn.Done, accepted, blocked], by simp [accepted]⟩
  · have plan : b.plan relay.registry r = .hand handler := by simp [Batch.plan, blocked, wanted]
    have store := refuses.store handler r w
    have answer := refuses.accepts handler r w known wanted
    have refused : relay.Refused poison r ↔ poison r.id := by simp [Relay.Refused, wanted]
    rcases handled : relay.handle handler r w with ⟨d, v⟩
    rw [handled] at store answer
    have still : v.store.faults = .none := (congrArg _ store).trans calm
    have turn : b.next relay r w = (.handed d, b.settle relay.now r d v) := by
      simp only [next, plan, handled]
    rcases text : failureText d with _ | text
    · have good : d = .accepted := by cases d <;> simp_all [failureText]
      simp only [settle, text, OutboxStore.tryMark_calm still (.processed r.id relay.now) held, mark] at turn
      refine ⟨_, _, _, turn, store, by simp [Turn.update, text], ?_, ?_⟩
      · simp [Turn.Done, refused, blocked, answer]
      · simp [refused, answer.mp good]
    · have bad : d ≠ .accepted := by
        rintro rfl
        cases text
      have poisoned : poison r.id := by
        by_contra fine
        exact bad (answer.mpr fine)
      simp only [settle, text, OutboxStore.tryMark_calm still (.failed r.id _) held, mark] at turn
      refine ⟨_, _, _, turn, store, by simp [Turn.update, text], ?_, ?_⟩
      · simp [Turn.Done, bad, refused, poisoned]
      · simp [refused, poisoned, eq_comm]

theorem deliver_calm (refuses : relay.RefusesJust poison written) (rows : List OutboxRecord)
    {b : Batch} {w : RelayWorld σ} (calm : w.store.faults = .none)
    (known : ∀ r ∈ rows, r.toNewRecord ∈ written) (held : ∀ r ∈ rows, r.id ∈ b.tx.claimed) :
    ∃ turns c v, b.deliver relay rows w = (turns, .ok c, v) ∧ v.store = w.store ∧
      turns.map (·.1) = rows ∧
      c.tx = { b.tx with
        updates := b.tx.updates ++ turns.filterMap fun e => e.2.update relay.now e.1 } ∧
      ∀ before r t after, turns = before ++ (r, t) :: after →
        (t.Done ↔ ¬ relay.Refused poison r ∧ r.aggregateId ∉ b.blocked ∧
          ∀ q ∈ before.map (·.1), relay.Refused poison q → q.aggregateId ≠ r.aggregateId) := by
  induction rows generalizing b w with
  | nil => exact ⟨[], b, w, rfl, rfl, rfl, by simp, by simp⟩
  | cons r rows ih =>
    obtain ⟨t, c, v, turn, store, tx, done, blocks⟩ :=
      next_calm refuses calm (known r List.mem_cons_self) (held r List.mem_cons_self)
    have later : ∀ q ∈ rows, q.id ∈ c.tx.claimed := by
      intro q hq
      rw [tx]
      exact held q (List.mem_cons_of_mem _ hq)
    obtain ⟨turns, d, u, rest, store', rows', tx', done'⟩ := ih (store ▸ calm)
      (fun q hq => known q (List.mem_cons_of_mem _ hq)) later
    refine ⟨(r, t) :: turns, d, u, ?_, store'.trans store, by simp [rows'], ?_, ?_⟩
    · rw [deliver_cons_ok turn, rest]
    · rw [tx', tx]
      cases mark : t.update relay.now r <;> simp [mark]
    · intro before q s after split
      rcases before with _ | ⟨⟨x, y⟩, before⟩
      · obtain ⟨⟨rfl, rfl⟩, -⟩ : (r = q ∧ t = s) ∧ _ := by simpa using split
        simpa using done
      · obtain ⟨⟨rfl, rfl⟩, tail⟩ : (r = x ∧ t = y) ∧ turns = before ++ (q, s) :: after := by
          simpa using split
        rw [done' before q s after tail, blocks]
        simp only [List.map_cons, List.forall_mem_cons]
        grind

end Batch

end Workboard
