import Workboard.Proofs.Relay.Written

/-!
Turn by turn through a batch. A turn is counted by what becomes of its row, blocks the aggregate of a row that
fails, and calls at most one handler; what has been said of some turns stays so when another one follows.
-/

namespace Workboard

variable {σ γ : Type} {relay : Relay σ γ}

namespace Relay.Handles

variable {s t u : σ} {rows later : List (OutboxRecord × Delivery)}

theorem trans (first : relay.Handles s rows t) (second : relay.Handles t later u) :
    relay.Handles s (rows ++ later) u := by
  induction first with
  | none s => exact second
  | call wanted rest ih => exact .call wanted (ih second)

end Relay.Handles

namespace Turn

theorem handedOver_cons (e : OutboxRecord × Turn) (turns : List (OutboxRecord × Turn)) :
    handedOver (e :: turns) = handedOver [e] ++ handedOver turns :=
  List.filterMap_append (l := [e])

theorem mem_handedOver {turns : List (OutboxRecord × Turn)} {r : OutboxRecord} {d : Delivery} :
    (r, d) ∈ handedOver turns ↔ (r, .handed d) ∈ turns := by
  simp only [handedOver, List.mem_filterMap]
  constructor
  · rintro ⟨⟨q, _ | _ | e⟩, mem, ⟨⟩⟩
    exact mem
  · exact fun mem => ⟨_, mem, rfl⟩

theorem handedOver_sublist (turns : List (OutboxRecord × Turn)) :
    ((handedOver turns).map (·.1)).Sublist (turns.map (·.1)) := by
  induction turns with
  | nil => exact .slnil
  | cons e turns ih =>
    obtain ⟨r, _ | _ | d⟩ := e
    · exact ih.cons r
    · exact ih.cons r
    · exact ih.cons_cons r

theorem outcome_of_failureText {d : Delivery} :
    (Turn.handed d).outcome = some (if Batch.failureText d = none then .processed else .failed) := by
  cases d <;> rfl

theorem done_iff_outcome {t : Turn} : t.Done ↔ t.outcome = some .processed ∨ t.outcome = some .skipped := by
  rcases t with _ | _ | (_ | _ | _) <;> simp [Done, outcome]

/-- The mark of a turn does to a row that waits what the turn leaves of it. -/
theorem foldl_on_update (now : Instant) {r : OutboxRecord} (waits : r.processedAt = none) (t : Turn) :
    (t.update now r).toList.foldl RowUpdate.on r = t.leave now r := by
  rcases t with _ | _ | (_ | _ | _) <;>
    simp [update, leave, Batch.failureText, RowUpdate.on, OutboxRecord.process, OutboxRecord.fail, waits]

theorem update_id {now : Instant} {r : OutboxRecord} {t : Turn} {u : RowUpdate} (h : t.update now r = some u) :
    u.id = r.id := by
  rcases t with _ | _ | (_ | _ | _) <;> cases h <;> rfl

end Turn

namespace BatchReport

/-- Each turn counts once. -/
theorem ofTurns_total (turns : List (OutboxRecord × Turn)) :
    (ofTurns turns).fetched = (ofTurns turns).processed + (ofTurns turns).failed + (ofTurns turns).skipped +
      (ofTurns turns).deferred := by
  induction turns with
  | nil => rfl
  | cons e turns ih =>
    simp only [ofTurns, List.length_cons, List.countP_cons] at *
    rcases e.2.outcome with _ | _ | _ | _ <;> simp <;> omega

theorem ofTurns_done (turns : List (OutboxRecord × Turn)) :
    turns.countP (fun e => e.2.outcome = some .processed ∨ e.2.outcome = some .skipped) =
      (ofTurns turns).processed + (ofTurns turns).skipped := by
  induction turns with
  | nil => rfl
  | cons e turns ih =>
    simp only [ofTurns, List.countP_cons, Bool.decide_or] at *
    rcases e.2.outcome with _ | _ | _ | _ <;> simp <;> omega

/-- The report when another turn is counted. -/
def count (b : BatchReport) (t : Turn) : BatchReport where
  fetched := b.fetched
  processed := b.processed + if t.outcome = some .processed then 1 else 0
  failed := b.failed + if t.outcome = some .failed then 1 else 0
  skipped := b.skipped + if t.outcome = some .skipped then 1 else 0
  deferred := b.deferred + if t.outcome = none then 1 else 0

theorem ofTurns_concat (turns : List (OutboxRecord × Turn)) (r : OutboxRecord) (t : Turn) (fetched : Nat) :
    { ofTurns (turns ++ [(r, t)]) with fetched := fetched } = count { ofTurns turns with fetched := fetched } t := by
  simp [ofTurns, count, List.countP_append, List.countP_cons]

end BatchReport

namespace Batch

variable {b c : Batch} {r : OutboxRecord} {t : Turn} {w v : RelayWorld σ}

/-- All that a turn does to a batch besides its mark. -/
structure Goes (relay : Relay σ γ) (b : Batch) (r : OutboxRecord) (t : Turn) (c : Batch) : Prop where
  report : c.report = b.report.count t
  blocked : ∀ a, a ∈ c.blocked ↔ a ∈ b.blocked ∨ t.outcome = some .failed ∧ r.aggregateId = a
  deferred : t = .deferred ↔ r.aggregateId ∈ b.blocked
  skipped : t ≠ .deferred → (t = .skipped ↔ relay.registry.get? r.eventType = none)

theorem next_goes (turn : b.next relay r w = (t, .ok c, v)) : Goes relay b r t c := by
  rcases plan_cases relay.registry b r with ⟨blocked, plan⟩ | ⟨free, unwanted, plan⟩ | ⟨free, handler, wanted, plan⟩
  · simp only [next, plan] at turn
    cases turn
    exact ⟨rfl, by simp [Turn.outcome, defer], by simp [blocked], by simp⟩
  · simp only [next, plan, skip, Prod.mk.injEq] at turn
    obtain ⟨rfl, marks⟩ := turn
    obtain ⟨ux, store, -, rfl⟩ := mark_ok marks
    exact ⟨rfl, by simp [Turn.outcome], by simp [free], by simp [unwanted]⟩
  · simp only [next, plan, settle, Prod.mk.injEq] at turn
    obtain ⟨rfl, marks⟩ := turn
    have outcome := Turn.outcome_of_failureText (d := (relay.handle handler r w).1)
    split at marks
    next text =>
      obtain ⟨ux, store, -, rfl⟩ := mark_ok marks
      rw [if_pos text] at outcome
      exact ⟨by simp [BatchReport.count, outcome], by simp [outcome], by simp [free], by simp [wanted]⟩
    next reason text =>
      obtain ⟨ux, store, -, rfl⟩ := mark_ok marks
      rw [if_neg (by simp [text])] at outcome
      exact ⟨by simp [BatchReport.count, outcome], by simp [outcome, eq_comm], by simp [free], by simp [wanted]⟩

theorem mark_error {answer : Except OutboxError (Transaction Empty) × OutboxStore} {outcome : RowOutcome}
    {goOn : Transaction Empty → Batch} {e : OutboxError} (h : mark w answer outcome goOn = (.error e, v)) :
    ∃ store, answer = (.error e, store) := by
  rcases answer with ⟨e | ux, store⟩ <;> cases h
  exact ⟨store, rfl⟩

/-- A turn on a row of the outbox fails only where a mark is to fail. -/
theorem next_error (leaves : relay.LeavesRows) (hr : r ∈ w.store.records) {e : OutboxError}
    (turn : b.next relay r w = (t, .error e, v)) :
    e = OutboxCall.markProcessed.fault ∨ e = OutboxCall.markFailed.fault := by
  rcases plan_cases relay.registry b r with ⟨-, plan⟩ | ⟨-, -, plan⟩ | ⟨-, handler, -, plan⟩
  · simp only [next, plan] at turn
    cases turn
  · simp only [next, plan, skip, Prod.mk.injEq] at turn
    obtain ⟨store, failed⟩ := mark_error turn.2
    exact .inl (OutboxStore.tryMark_error (OutboxStore.knows_of_mem b.tx hr) failed)
  · simp only [next, plan, settle, Prod.mk.injEq] at turn
    have marks := turn.2
    rw [← leaves handler r w] at hr
    split at marks
    next =>
      obtain ⟨store, failed⟩ := mark_error marks
      exact .inl (OutboxStore.tryMark_error (OutboxStore.knows_of_mem b.tx hr) failed)
    next =>
      obtain ⟨store, failed⟩ := mark_error marks
      exact .inr (OutboxStore.tryMark_error (OutboxStore.knows_of_mem b.tx hr) failed)

/-- Where nothing is to fail, each row that was taken has its turn. -/
theorem next_of_calm (keeps : ∀ handler r w, (relay.handle handler r w).2.store = w.store)
    (calm : w.store.faults = .none) (held : r.id ∈ b.tx.claimed) :
    ∃ t c v, b.next relay r w = (t, .ok c, v) ∧ v.store = w.store := by
  rcases plan_cases relay.registry b r with ⟨-, plan⟩ | ⟨-, -, plan⟩ | ⟨-, handler, -, plan⟩
  · simp only [next, plan]
    exact ⟨_, _, _, rfl, rfl⟩
  · simp only [next, plan, skip, OutboxStore.tryMark_calm calm (.processed r.id relay.now) held, mark]
    exact ⟨_, _, _, rfl, rfl⟩
  · have store := keeps handler r w
    rcases handled : relay.handle handler r w with ⟨d, v⟩
    rw [handled] at store
    have still : v.store.faults = .none := (congrArg _ store).trans calm
    simp only [next, plan, handled, settle]
    split
    · simp only [OutboxStore.tryMark_calm still (.processed r.id relay.now) held, mark]
      exact ⟨_, _, _, rfl, store⟩
    · simp only [OutboxStore.tryMark_calm still (.failed r.id _) held, mark]
      exact ⟨_, _, _, rfl, store⟩

theorem deliver_of_calm (keeps : ∀ handler r w, (relay.handle handler r w).2.store = w.store)
    (rows : List OutboxRecord) {b : Batch} {w : RelayWorld σ} (calm : w.store.faults = .none)
    (held : ∀ r ∈ rows, r.id ∈ b.tx.claimed) :
    ∃ turns c v, b.deliver relay rows w = (turns, .ok c, v) ∧ v.store = w.store := by
  induction rows generalizing b w with
  | nil => exact ⟨[], b, w, rfl, rfl⟩
  | cons r rows ih =>
    obtain ⟨own, others⟩ := List.forall_mem_cons.mp held
    obtain ⟨t, c, v, turn, store⟩ := next_of_calm keeps calm own
    have later : ∀ q ∈ rows, q.id ∈ c.tx.claimed := by
      rw [next_tx turn]
      exact others
    obtain ⟨turns, d, u, rest, store'⟩ := ih (store ▸ calm) later
    rw [deliver_cons_ok turn, rest]
    exact ⟨_, _, _, rfl, store'.trans store⟩

@[simp] theorem state_mark (w : RelayWorld σ) (answer : Except OutboxError (Transaction Empty) × OutboxStore)
    (outcome : RowOutcome) (goOn : Transaction Empty → Batch) : (mark w answer outcome goOn).2.state = w.state := by
  rcases answer with ⟨e | tx, store⟩ <;> rfl

/-- A handler is called where its row is handed over. -/
theorem next_handles (relay : Relay σ γ) (b : Batch) (r : OutboxRecord) (w : RelayWorld σ) :
    relay.Handles w.state (Turn.handedOver [(r, (b.next relay r w).1)]) (b.next relay r w).2.2.state := by
  rcases plan_cases relay.registry b r with ⟨-, plan⟩ | ⟨-, -, plan⟩ | ⟨-, handler, wanted, plan⟩
  · simp only [next, plan]
    exact .none w.state
  · simp only [next, plan, skip, state_mark]
    exact .none w.state
  · have still : (b.settle relay.now r (relay.handle handler r w).1 (relay.handle handler r w).2).2.state =
        (relay.handle handler r w).2.state := by
      unfold settle
      split <;> exact state_mark _ _ _ _
    simp only [next, plan, still]
    exact .call wanted (.none _)

theorem deliver_handles (rows : List OutboxRecord) (b : Batch) (w : RelayWorld σ) :
    relay.Handles w.state (Turn.handedOver (b.deliver relay rows w).1) (b.deliver relay rows w).2.2.state := by
  induction rows generalizing b w with
  | nil => exact .none w.state
  | cons r rows ih =>
    have first := next_handles relay b r w
    rcases turn : b.next relay r w with ⟨t, e | c, v⟩ <;> rw [turn] at first
    · rw [deliver_cons_error turn]
      exact first
    · rw [deliver_cons_ok turn, Turn.handedOver_cons]
      exact first.trans (ih c v)

/-- A batch that took a number of rows, as it stands behind the turns so far. -/
structure Underway (relay : Relay σ γ) (fetched : Nat) (turns : List (OutboxRecord × Turn)) (b : Batch) :
    Prop where
  report : b.report = { BatchReport.ofTurns turns with fetched := fetched }
  updates : b.tx.updates = turns.filterMap fun e => e.2.update relay.now e.1
  appended : b.tx.appended = []
  blocked : ∀ a, a ∈ b.blocked ↔ ∃ e ∈ turns, e.2.outcome = some .failed ∧ e.1.aggregateId = a
  turns : relay.TakesTurns turns

variable {fetched : Nat} {turns later : List (OutboxRecord × Turn)}

theorem Underway.next (h : b.Underway relay fetched turns) (turn : b.next relay r w = (t, .ok c, v)) :
    c.Underway relay fetched (turns ++ [(r, t)]) := by
  have goes := next_goes turn
  have tx := next_tx turn
  have failed (a : Uuid) : a ∈ c.blocked ↔
      ∃ e ∈ turns ++ [(r, t)], e.2.outcome = some .failed ∧ e.1.aggregateId = a := by
    rw [goes.blocked, h.blocked]
    simp [or_and_right, exists_or]
  refine ⟨?_, ?_, ?_, failed, ?_, ?_⟩
  · rw [goes.report, h.report, BatchReport.ofTurns_concat]
  · rw [tx, List.filterMap_append, ← h.updates]
    cases mark : t.update relay.now r <;> simp [mark]
  · rw [tx]
    exact h.appended
  · intro before q u after split
    -- the turn in question is the new one, or one of those before
    rcases List.eq_nil_or_concat after with rfl | ⟨after, last, rfl⟩
    · obtain ⟨rfl, own⟩ := List.append_inj' split rfl
      obtain ⟨rfl, rfl⟩ : r = q ∧ t = u := by simpa using own
      rw [goes.deferred, h.blocked]
    · have whole : turns ++ [(r, t)] = (before ++ (q, u) :: after) ++ [last] := by simpa using split
      exact h.turns.deferred before q u after (List.append_inj' whole rfl).1
  · intro q u mem notDeferred
    rcases List.mem_append.mp mem with old | new
    · exact h.turns.skipped q u old notDeferred
    · obtain ⟨rfl, rfl⟩ : q = r ∧ u = t := by simpa using new
      exact goes.skipped notDeferred

theorem Underway.deliver (rows : List OutboxRecord) (h : b.Underway relay fetched turns)
    (delivered : b.deliver relay rows w = (later, .ok c, v)) :
    c.Underway relay fetched (turns ++ later) ∧ later.map (·.1) = rows := by
  induction rows generalizing b w turns later with
  | nil =>
    cases delivered
    exact ⟨by rwa [List.append_nil], rfl⟩
  | cons r rows ih =>
    rcases turn : b.next relay r w with ⟨t, e | d, u⟩
    · rw [deliver_cons_error turn] at delivered
      cases delivered
    · rw [deliver_cons_ok turn] at delivered
      rcases rest : d.deliver relay rows u with ⟨more, answer, x⟩
      rw [rest] at delivered
      cases delivered
      obtain ⟨underway, taken⟩ := ih (h.next turn) rest
      exact ⟨by simpa using underway, by simp [taken]⟩

end Batch

/-- The calls of a batch are those that its turns tell of. -/
theorem Relay.runBatch_handles (relay : Relay σ γ) (w : RelayWorld σ) :
    relay.Handles w.state (Turn.handedOver (relay.runBatch w).1) (relay.runBatch w).2.2.state := by
  rcases begun : relay.begin w.store with ⟨e | ⟨rows, b⟩, s⟩
  · simp only [runBatch, begun]
    exact .none w.state
  · obtain ⟨turns, state⟩ := runBatch_of_begin begun
    rw [turns, state]
    exact Batch.deliver_handles rows b { w with store := s }

end Workboard
