import Workboard.Relay.Batch
import Workboard.Proofs.Outbox.Order

/-!
A relay on its own delivers the rows of an aggregate in the order in which they are due. Whatever handlers
answer and commits do, a row has its turn once those before it are done.
-/

namespace Workboard

variable {σ γ : Type}

/-- Handlers that take no rows and give none back: no one else works on the outbox as a relay does. -/
def Relay.LeavesClaims (relay : Relay σ γ) : Prop :=
  ∀ handler r w, (relay.handle handler r w).2.store.claimed = w.store.claimed

/-- The row is done with, as far as those behind it are concerned. -/
def Turn.Done (t : Turn) : Prop := t = .skipped ∨ t = .handed .accepted

theorem Turn.done_of_failureText {d : Delivery} (h : Batch.failureText d = none) :
    (Turn.handed d).Done := by
  cases d with
  | accepted => exact .inr rfl
  | refused reason => cases h
  | panicked reason => cases h

namespace Batch

/-- A mark leaves the claims alone, and a batch goes on with what its transaction has taken. -/
theorem mark_claimed {w : RelayWorld σ} {tx : Transaction Empty}
    {answer : Except OutboxError (Transaction Empty) × OutboxStore} (quiet : w.store.Quiet tx answer)
    (outcome : RowOutcome) {goOn : Transaction Empty → Batch} (same : ∀ ux, (goOn ux).tx = ux) :
    (mark w answer outcome goOn).2.store.claimed = w.store.claimed ∧
      ∀ c, (mark w answer outcome goOn).1 = .ok c → c.tx.claimed = tx.claimed := by
  rcases answer with ⟨e | ux, store⟩
  · exact ⟨quiet.claimed, by rintro c ⟨⟩⟩
  · refine ⟨quiet.claimed, ?_⟩
    rintro c ⟨⟩
    rw [same]
    exact quiet.own ux rfl

theorem settle_claimed (b : Batch) (now : Instant) (r : OutboxRecord) (d : Delivery)
    (w : RelayWorld σ) :
    (b.settle now r d w).2.store.claimed = w.store.claimed ∧
      ∀ c, (b.settle now r d w).1 = .ok c → c.tx.claimed = b.tx.claimed := by
  unfold settle
  split
  next =>
    apply mark_claimed (w.store.quiet_tryMark b.tx (.processed r.id now))
    exact fun _ => rfl
  next text _ =>
    apply mark_claimed (w.store.quiet_tryMark b.tx (.failed r.id text))
    exact fun _ => rfl

theorem next_claimed {relay : Relay σ γ} (leaves : relay.LeavesClaims) (b : Batch)
    (r : OutboxRecord) (w : RelayWorld σ) :
    (b.next relay r w).2.2.store.claimed = w.store.claimed ∧
      ∀ c, (b.next relay r w).2.1 = .ok c → c.tx.claimed = b.tx.claimed := by
  unfold next
  split
  next =>
    refine ⟨rfl, ?_⟩
    rintro c ⟨⟩
    rfl
  next =>
    apply mark_claimed (w.store.quiet_tryMark b.tx (.processed r.id relay.now))
    exact fun _ => rfl
  next handler _ =>
    obtain ⟨kept, own⟩ := b.settle_claimed relay.now r (relay.handle handler r w).1
      (relay.handle handler r w).2
    exact ⟨kept.trans (leaves handler r w), own⟩

theorem deliver_cons_ok {relay : Relay σ γ} {b c : Batch} {r : OutboxRecord} {w v : RelayWorld σ}
    {t : Turn} (h : b.next relay r w = (t, .ok c, v)) (rows : List OutboxRecord) :
    b.deliver relay (r :: rows) w =
      ((r, t) :: (c.deliver relay rows v).1, (c.deliver relay rows v).2) := by
  rw [deliver, h]

theorem deliver_cons_error {relay : Relay σ γ} {b : Batch} {r : OutboxRecord} {w v : RelayWorld σ}
    {t : Turn} {e : OutboxError} (h : b.next relay r w = (t, .error e, v))
    (rows : List OutboxRecord) :
    b.deliver relay (r :: rows) w =
      ([(r, t)], .error e, { v with store := v.store.rollback b.tx }) := by
  rw [deliver, h]

/-- A batch under way holds what its transaction has taken; one that an error ends holds nothing. -/
theorem deliver_holds {relay : Relay σ γ} (leaves : relay.LeavesClaims) {before : List Uuid}
    (rows : List OutboxRecord) {b : Batch} {w : RelayWorld σ} (h : w.store.Holds before b.tx) :
    match (b.deliver relay rows w).2 with
    | (.ok c, v) => v.store.Holds before c.tx
    | (.error _, v) => v.store.claimed = before := by
  induction rows generalizing b w with
  | nil => exact h
  | cons r rows ih =>
    obtain ⟨kept, own⟩ := next_claimed leaves b r w
    rcases hn : b.next relay r w with ⟨t, e | c, v⟩
    · rw [hn] at kept
      rw [deliver_cons_error hn]
      exact (h.congr kept rfl).rollback
    · rw [hn] at kept own
      rw [deliver_cons_ok hn]
      exact ih (h.congr kept (own c rfl))

theorem mark_ok {w v : RelayWorld σ} {answer : Except OutboxError (Transaction Empty) × OutboxStore}
    {outcome : RowOutcome} {goOn : Transaction Empty → Batch} {c : Batch}
    (h : mark w answer outcome goOn = (.ok c, v)) : ∃ ux store, answer = (.ok ux, store) ∧ c = goOn ux := by
  rcases answer with ⟨e | ux, store⟩ <;> cases h
  exact ⟨ux, store, rfl, rfl⟩

/-- A row waits if its aggregate is blocked, and otherwise goes to the handler that is registered for it. -/
theorem plan_cases (registry : HandlerRegistry γ) (b : Batch) (r : OutboxRecord) :
    r.aggregateId ∈ b.blocked ∧ b.plan registry r = .defer ∨
      r.aggregateId ∉ b.blocked ∧ registry.get? r.eventType = none ∧ b.plan registry r = .skip ∨
      r.aggregateId ∉ b.blocked ∧ ∃ handler, registry.get? r.eventType = some handler ∧
        b.plan registry r = .hand handler := by
  by_cases blocked : r.aggregateId ∈ b.blocked
  · exact .inl ⟨blocked, by simp [plan, blocked]⟩
  · rcases wanted : registry.get? r.eventType with _ | handler
    · exact .inr (.inl ⟨blocked, rfl, by simp [plan, blocked, wanted]⟩)
    · exact .inr (.inr ⟨blocked, handler, rfl, by simp [plan, blocked, wanted]⟩)

theorem next_blocked {relay : Relay σ γ} {b c : Batch} {r : OutboxRecord} {w v : RelayWorld σ}
    {t : Turn} (h : b.next relay r w = (t, .ok c, v)) :
    (∀ a ∈ b.blocked, a ∈ c.blocked) ∧ (t.Done ∨ r.aggregateId ∈ c.blocked) := by
  rcases plan_cases relay.registry b r with ⟨blocked, plan⟩ | ⟨-, -, plan⟩ | ⟨-, handler, -, plan⟩
  · simp only [next, plan] at h
    cases h
    exact ⟨fun _ ha => ha, .inr blocked⟩
  · simp only [next, plan, skip, Prod.mk.injEq] at h
    obtain ⟨rfl, h⟩ := h
    obtain ⟨tx, -, -, rfl⟩ := mark_ok h
    exact ⟨fun _ ha => ha, .inl (.inl rfl)⟩
  · simp only [next, plan, settle, Prod.mk.injEq] at h
    obtain ⟨rfl, h⟩ := h
    split at h
    next hd =>
      obtain ⟨tx, -, -, rfl⟩ := mark_ok h
      exact ⟨fun _ ha => ha, .inl (Turn.done_of_failureText hd)⟩
    next =>
      obtain ⟨tx, -, -, rfl⟩ := mark_ok h
      exact ⟨fun _ ha => List.mem_append_left _ ha, .inr (by simp)⟩

theorem next_of_blocked {relay : Relay σ γ} {b : Batch} {r : OutboxRecord}
    (h : r.aggregateId ∈ b.blocked) (w : RelayWorld σ) :
    b.next relay r w = (.deferred, .ok b.defer, w) := by
  have hp : b.plan relay.registry r = .defer := by
    unfold plan
    simp [h]
  unfold next
  rw [hp]

theorem not_blocked_of_turn {relay : Relay σ γ} {b : Batch} {r : OutboxRecord} {w : RelayWorld σ}
    {t : Turn} (h : (b.next relay r w).1 = t) (ht : t ≠ .deferred) : r.aggregateId ∉ b.blocked := by
  intro hb
  rw [next_of_blocked hb] at h
  exact ht h.symm

theorem deliver_rows (relay : Relay σ γ) (rows : List OutboxRecord) (b : Batch) (w : RelayWorld σ) :
    (b.deliver relay rows w).1.map (·.1) <+: rows := by
  induction rows generalizing b w with
  | nil => exact List.prefix_rfl
  | cons r rows ih =>
    rcases hn : b.next relay r w with ⟨t, e | c, v⟩
    · rw [deliver_cons_error hn]
      exact List.prefix_append [r] rows
    · rw [deliver_cons_ok hn]
      exact List.cons_prefix_cons.mpr ⟨rfl, ih c v⟩

/-- A row that is not deferred finds the rows of its aggregate done that had their turn before it. -/
theorem deliver_done {relay : Relay σ γ} (rows : List OutboxRecord) {b : Batch} {w : RelayWorld σ}
    {before after : List (OutboxRecord × Turn)} {r : OutboxRecord} {t : Turn}
    (h : (b.deliver relay rows w).1 = before ++ (r, t) :: after) (ht : t ≠ .deferred) :
    r.aggregateId ∉ b.blocked ∧
      ∀ q u, (q, u) ∈ before → q.aggregateId = r.aggregateId → u.Done := by
  induction rows generalizing b w before with
  | nil => simp [deliver] at h
  | cons x rows ih =>
    rcases hn : b.next relay x w with ⟨u, e | c, v⟩
    · rw [deliver_cons_error hn] at h
      rcases before with _ | ⟨p, before⟩
      · obtain ⟨⟨rfl, rfl⟩, -⟩ : (x = r ∧ u = t) ∧ _ := by simpa using h
        exact ⟨not_blocked_of_turn (congrArg (·.1) hn) ht, by simp⟩
      · simp at h
    · rw [deliver_cons_ok hn] at h
      rcases before with _ | ⟨p, before⟩
      · obtain ⟨⟨rfl, rfl⟩, -⟩ : (x = r ∧ u = t) ∧ _ := by simpa using h
        exact ⟨not_blocked_of_turn (congrArg (·.1) hn) ht, by simp⟩
      · obtain ⟨rfl, rest⟩ := List.cons.inj h
        obtain ⟨stays, done⟩ := next_blocked hn
        obtain ⟨free, later⟩ := ih rest
        refine ⟨fun hb => free (stays _ hb), ?_⟩
        intro q y hq same
        rcases List.mem_cons.mp hq with hq | hq
        · obtain ⟨rfl, rfl⟩ := Prod.mk.inj hq
          exact done.resolve_right fun hb => free (same ▸ hb)
        · exact later q y hq same

end Batch

namespace Relay

/-- A batch that begins has taken the rows at the head of the queue, and nothing is blocked; one that does
not begin holds nothing. -/
theorem begin_takes (relay : Relay σ γ) (s : OutboxStore) :
    match relay.begin s with
    | (.ok (rows, b), t) =>
      rows = s.available.take relay.batchSize ∧ b.blocked = [] ∧ t.Holds s.claimed b.tx
    | (.error _, t) => t.claimed = s.claimed := by
  rcases h1 : s.strike .beginPanic with ⟨_ | _, s1⟩
  rcases h2 : s1.strike .begin with ⟨_ | _, s2⟩
  have records := (OutboxStore.of_strike h2).1.trans (OutboxStore.of_strike h1).1
  have claimed := (OutboxStore.of_strike h2).2.trans (OutboxStore.of_strike h1).2
  have held := (OutboxStore.holds_empty (β := Empty) s2).tryFetch relay.batchSize
  rcases hf : s2.tryFetch (.empty : Transaction Empty) relay.batchSize with ⟨e | rows, t, tx⟩
  · simp only [begin, h1, h2, hf, OutboxStore.strike_claimed]
    exact (OutboxStore.tryFetch_error hf).trans claimed
  · rw [hf, claimed] at held
    simp only [begin, h1, h2, hf]
    refine ⟨?_, rfl, held⟩
    rw [OutboxStore.tryFetch_ok hf, OutboxStore.available_congr records claimed]
  · simp only [begin, h1, h2]
    exact (OutboxStore.of_strike h2).2.trans (OutboxStore.of_strike h1).2
  · simp only [begin, h1]
    exact (OutboxStore.of_strike h1).2

theorem begin_of_calm (relay : Relay σ γ) {s : OutboxStore} (calm : s.faults = .none) :
    relay.begin s =
      let (rows, t, tx) := s.fetchPending .empty relay.batchSize
      (.ok (rows, .start tx rows), t) := by
  obtain ⟨records, claimed, failCommits, faults⟩ := s
  obtain rfl : faults = .none := calm
  rfl

/-- A batch gives back what it has taken, whether or not it succeeds. -/
theorem runBatch_claimed {relay : Relay σ γ} (leaves : relay.LeavesClaims) (w : RelayWorld σ) :
    (relay.runBatch w).2.2.store.claimed = w.store.claimed := by
  have taken := relay.begin_takes w.store
  unfold runBatch
  rcases hb : relay.begin w.store with ⟨e | ⟨rows, b⟩, s⟩
  · rw [hb] at taken
    exact taken
  · rw [hb] at taken
    have held := Batch.deliver_holds leaves rows (w := { w with store := s }) taken.2.2
    rcases hd : b.deliver relay rows { w with store := s } with ⟨turns, e | c, v⟩
    · rw [hd] at held
      simp only [hd]
      exact held
    · rw [hd] at held
      have given := (OutboxStore.tryCommit_claimed v.store c.tx).trans held.rollback
      rcases hc : v.store.tryCommit c.tx with ⟨e | writes, t⟩
      · simp only [hd, hc]
        rwa [hc] at given
      · simp only [hd, hc]
        rwa [hc] at given

theorem after_claimed {relay : Relay σ γ} (leaves : relay.LeavesClaims) {w : RelayWorld σ}
    (free : w.store.claimed = []) (e : RelayEvent σ) : (relay.after w e).store.claimed = [] := by
  cases e with
  | batch now =>
    have still : (relay.at_ now).LeavesClaims := leaves
    exact (runBatch_claimed still w).trans free
  | append records =>
    show (w.store.commit (Transaction.empty.append records)).2.claimed = []
    unfold OutboxStore.commit
    split <;> simp [OutboxStore.rollback, free]
  | failCommits on => exact free
  | fault call times => exact free
  | change state => exact free

theorem run_claimed {relay : Relay σ γ} (leaves : relay.LeavesClaims) (history : List (RelayEvent σ))
    {w : RelayWorld σ} (free : w.store.claimed = []) :
    (relay.run w history).store.claimed = [] := by
  induction history generalizing w with
  | nil => exact free
  | cons e history ih => exact ih (after_claimed leaves free e)

/-- In one batch of a relay that holds no rows, a row that is not deferred finds those done that are due
before it. -/
theorem runBatch_ordered {relay : Relay σ γ} {w : RelayWorld σ} (free : w.store.claimed = [])
    (distinct : (w.store.records.map (·.id)).Nodup)
    {before after : List (OutboxRecord × Turn)} {q r : OutboxRecord} {t : Turn}
    (turn : (relay.runBatch w).1 = before ++ (r, t) :: after) (ht : t ≠ .deferred)
    (order : Precedes w.store.records q r) (same : q.aggregateId = r.aggregateId) :
    q.processedAt ≠ none ∨ (q, .skipped) ∈ before ∨ (q, .handed .accepted) ∈ before := by
  by_cases waits : q.processedAt = none
  · right
    have taken := relay.begin_takes w.store
    unfold runBatch at turn
    rcases hb : relay.begin w.store with ⟨e | ⟨rows, b⟩, s⟩
    · simp [hb] at turn
    · rw [hb] at taken
      obtain ⟨rows_eq, -, -⟩ := taken
      have turns : (b.deliver relay rows { w with store := s }).1 = before ++ (r, t) :: after := by
        rw [hb] at turn
        rcases hd : b.deliver relay rows { w with store := s } with ⟨turns, e | c, v⟩
        · simpa only [hd] using turn
        · simp only [hd] at turn
          split at turn <;> exact turn
      have head : before.map (·.1) ++ [r] <+: rows := by
        have all := Batch.deliver_rows relay rows b { w with store := s }
        rw [turns] at all
        refine List.IsPrefix.trans ⟨after.map (·.1), ?_⟩ all
        simp
      obtain ⟨rest, hrest⟩ := head
      have split : w.store.available.take relay.batchSize = before.map (·.1) ++ r :: rest := by
        rw [← rows_eq, ← hrest, List.append_assoc, List.singleton_append]
      have free_q := (OutboxStore.mem_available_of_free free).mpr ⟨order.mem.1, waits⟩
      have front := OutboxStore.mem_front_of_precedes distinct split order free_q
      obtain ⟨⟨q, u⟩, hu, rfl⟩ := List.mem_map.mp front
      rcases (Batch.deliver_done rows turns ht).2 q u hu same with rfl | rfl
      · exact .inl hu
      · exact .inr hu
  · exact .inl waits

/-- Order per aggregate. Whatever rows there are, however handlers answer, whichever commits fail and
whatever is written between batches: a row that is handed over or skipped in a batch comes after each row
of its aggregate that is due before it is processed, or was handled or skipped earlier in the batch. -/
theorem delivers_in_order (relay : Relay σ γ) (leaves : relay.LeavesClaims) (start : RelayWorld σ)
    (free : start.store.claimed = []) (history : List (RelayEvent σ)) (now : Instant)
    (distinct : ((relay.run start history).store.records.map (·.id)).Nodup)
    (before after : List (OutboxRecord × Turn)) (r : OutboxRecord) (t : Turn)
    (turn : ((relay.at_ now).runBatch (relay.run start history)).1 = before ++ (r, t) :: after)
    (ht : t ≠ .deferred) (q : OutboxRecord)
    (order : Precedes (relay.run start history).store.records q r)
    (same : q.aggregateId = r.aggregateId) :
    q.processedAt ≠ none ∨ (q, .skipped) ∈ before ∨ (q, .handed .accepted) ∈ before :=
  runBatch_ordered (run_claimed leaves history free) distinct turn ht order same

def firstRow : NewRecord :=
  ⟨⟨1⟩, "todo.created", "todo", ⟨7⟩, [], [], ⟨⟨2025, 1, 1, rfl⟩, 9, 0, 0, 0, rfl⟩⟩

/-- A relay whose handler refuses the first row that it gets. -/
def busyOnce : Relay Bool Unit where
  registry := HandlerRegistry.empty.register "todo.created" ()
  handle _ _ w := (if w.state then .accepted else .refused "busy", { w with state := true })
  batchSize := 2
  now := firstRow.createdAt

/-- Two rows of an aggregate are written that are created at one time; of a batch the first is refused. -/
def refusal : List (RelayEvent Bool) :=
  [.append [firstRow, { firstRow with id := ⟨2⟩ }], .batch firstRow.createdAt]

def refusedRow : OutboxRecord := ⟨firstRow, 1, some "busy", none⟩

def deferredRow : OutboxRecord := .ofNew { firstRow with id := ⟨2⟩ }

def refusedOnce : RelayWorld Bool := ⟨⟨[refusedRow, deferredRow], [], false, .none⟩, [.failed], true⟩

theorem delivers_refused_first :
    busyOnce.run ⟨.empty, [], false⟩ refusal = refusedOnce ∧
      (busyOnce.runBatch refusedOnce).1 =
        [(refusedRow, .handed .accepted)] ++ (deferredRow, .handed .accepted) :: [] ∧
      (refusedRow.processedAt ≠ none ∨ (refusedRow, .skipped) ∈ [(refusedRow, Turn.handed .accepted)] ∨
        (refusedRow, .handed .accepted) ∈ [(refusedRow, Turn.handed .accepted)]) := by
  let waiting : OutboxStore := ⟨[.ofNew firstRow, deferredRow], [], false, .none⟩
  have first : waiting.available = [.ofNew firstRow, deferredRow] :=
    OutboxStore.available_of_pairwise (by decide)
  have second : refusedOnce.store.available = [refusedRow, deferredRow] :=
    OutboxStore.available_of_pairwise (by decide)
  have world : busyOnce.run ⟨.empty, [], false⟩ refusal = refusedOnce := by
    show (busyOnce.runBatch ⟨waiting, [], false⟩).2.2 = refusedOnce
    rw [runBatch, begin_of_calm busyOnce rfl, OutboxStore.fetchPending, first]
    rfl
  have turns : (busyOnce.runBatch refusedOnce).1 =
      [(refusedRow, .handed .accepted)] ++ (deferredRow, .handed .accepted) :: [] := by
    rw [runBatch, begin_of_calm busyOnce rfl, OutboxStore.fetchPending, second]
    rfl
  refine ⟨world, turns, ?_⟩
  rw [← world] at turns
  refine delivers_in_order busyOnce (fun _ _ _ => rfl) ⟨.empty, [], false⟩ rfl refusal
    firstRow.createdAt ?_ _ _ _ _ turns nofun _ ?_ rfl
  · rw [world]
    decide
  · rw [world]
    exact ⟨0, 1, rfl, rfl, .inr ⟨rfl, by omega⟩⟩

end Relay

end Workboard
