import Workboard.Relay.Poll
import Workboard.Proofs.Relay.Accounts

/-!
What a step of the loop can do. Rows that wait become fewer only by a commit, and by as many as its report says; so
a full batch leaves fewer full batches to come.
-/

namespace Workboard

variable {σ γ : Type}

/-- How many rows wait. -/
def PollState.waiting (s : PollState σ) : Nat := s.world.store.pending.length

/-- How many rows a step is done with. -/
def PollSign.settled : PollSign → Nat
  | .committed report => report.processed + report.skipped
  | _ => 0

namespace PollingRelay

/-- Neither handlers nor the time between two polls change rows, and a relay that was told to stop stays so. -/
structure Tame (relay : PollingRelay σ γ) : Prop where
  rows : relay.LeavesRows
  waits : ∀ w, (relay.wait w).store.records = w.store.records
  looks : ∀ w v, w.state = v.state → relay.cancelled w = relay.cancelled v
  handled : ∀ handler r w, relay.cancelled w = true → relay.cancelled (relay.handle handler r w).2 = true
  waited : ∀ w, relay.cancelled w = true → relay.cancelled (relay.wait w) = true

/-- What others may do: anything but to change rows and to have the relay go on that was told to stop. -/
structure Harmless (relay : PollingRelay σ γ) (change : RelayWorld σ → RelayWorld σ) : Prop where
  rows : ∀ w, (change w).store.records = w.store.records
  told : ∀ w, relay.cancelled w = true → relay.cancelled (change w) = true

/-- The steps of the loop, one constructor for each. -/
inductive Moves (relay : PollingRelay σ γ) : PollState σ → PollSign → PollState σ → Prop
  | stops {w : RelayWorld σ} (told : relay.cancelled w = true) :
      Moves relay ⟨.ready, w⟩ (.ended .stopped) ⟨.ended .stopped, w⟩
  | fails {w v : RelayWorld σ} {place : PollPlace} (untold : relay.cancelled w = false)
      (rows : v.store.records = w.store.records) (state : v.state = w.state)
      (idle : place = .resting ∨ place = .ended .panicked) : Moves relay ⟨.ready, w⟩ .began ⟨place, v⟩
  | begins {w v : RelayWorld σ} {rows : List OutboxRecord} {b : Batch} (untold : relay.cancelled w = false)
      (begun : relay.begin w.store = (.ok (rows, b), v.store)) (state : v.state = w.state) :
      Moves relay ⟨.ready, w⟩ .began ⟨.delivering rows b, v⟩
  | turns {w v : RelayWorld σ} {r : OutboxRecord} {rows : List OutboxRecord} {b c : Batch} {t : Turn}
      (turn : b.next relay.toRelay r w = (t, .ok c, v)) :
      Moves relay ⟨.delivering (r :: rows) b, w⟩ (.turn r t) ⟨.delivering rows c, v⟩
  | breaks {w v : RelayWorld σ} {r : OutboxRecord} {rows : List OutboxRecord} {b : Batch} {t : Turn} {e : OutboxError}
      (turn : b.next relay.toRelay r w = (t, .error e, v)) :
      Moves relay ⟨.delivering (r :: rows) b, w⟩ (.broke e) ⟨.resting, { v with store := v.store.rollback b.tx }⟩
  | commits {w v : RelayWorld σ} {b : Batch} {writes : List Empty}
      (committed : w.store.tryCommit b.tx = (.ok writes, v.store)) (state : v.state = w.state) :
      Moves relay ⟨.delivering [] b, w⟩ (.committed b.report)
        ⟨if b.report.isFull relay.batchSize then .ready else .resting, v⟩
  | loses {w v : RelayWorld σ} {b : Batch} {e : OutboxError}
      (lost : w.store.tryCommit b.tx = (.error e, v.store)) (state : v.state = w.state) :
      Moves relay ⟨.delivering [] b, w⟩ (.lost e) ⟨.resting, v⟩
  | wakes (w : RelayWorld σ) : Moves relay ⟨.resting, w⟩ .woke ⟨.ready, relay.wait w⟩
  | stays (how : LoopEnd) (w : RelayWorld σ) : Moves relay ⟨.ended how, w⟩ (.ended how) ⟨.ended how, w⟩

theorem step_moves (relay : PollingRelay σ γ) (s : PollState σ) :
    relay.Moves s (relay.step s).1 (relay.step s).2 := by
  obtain ⟨_ | ⟨_ | ⟨r, rows⟩, b⟩ | _ | how, w⟩ := s
  · rcases told : relay.cancelled w with _ | _
    · have records := (relay.begin_writes w.store).1
      rcases begun : relay.begin w.store with ⟨(e | reason) | ⟨rows, b⟩, store⟩ <;> rw [begun] at records
      · simp only [step, told, begun]
        exact .fails told records rfl (.inl rfl)
      · simp only [step, told, begun]
        exact .fails told records rfl (.inr rfl)
      · simp only [step, told, begun]
        exact .begins told begun rfl
    · simp only [step, told]
      exact .stops told
  · rcases ended : w.store.tryCommit b.tx with ⟨e | writes, store⟩
    · simp only [step, ended]
      exact .loses ended rfl
    · simp only [step, ended]
      exact .commits ended rfl
  · rcases turn : b.next relay.toRelay r w with ⟨t, e | c, v⟩
    · simp only [step, turn]
      exact .breaks turn
    · simp only [step, turn]
      exact .turns turn
  · exact .wakes w
  · exact .stays how w

/-- A batch in progress has given some of its rows their turns, and all of them wait in the outbox. -/
structure Sound (relay : PollingRelay σ γ) (s : PollState σ) : Prop where
  distinct : (s.world.store.records.map (·.id)).Nodup
  batch : ∀ rows b, s.place = .delivering rows b → ∃ turns : List (OutboxRecord × Turn),
    b.Underway relay.toRelay (turns.length + rows.length) turns ∧
      AreWaiting s.world.store.records (turns.map (·.1) ++ rows) ∧ turns.length + rows.length ≤ relay.batchSize

variable {relay : PollingRelay σ γ} {s t : PollState σ} {x : PollSign}

theorem Sound.of_idle (distinct : (s.world.store.records.map (·.id)).Nodup)
    (idle : ∀ rows b, s.place ≠ .delivering rows b) : relay.Sound s :=
  ⟨distinct, fun rows b place => absurd place (idle rows b)⟩

/-- Others do not bear on a batch in progress. -/
theorem Sound.others (sound : relay.Sound s) {change : RelayWorld σ → RelayWorld σ} (harmless : relay.Harmless change) :
    relay.Sound ⟨s.place, change s.world⟩ := by
  have same := harmless.rows s.world
  exact ⟨same ▸ sound.distinct, fun rows b place => same ▸ sound.batch rows b place⟩

/-- What a commit does: rows are left by their turns, and the report says how many wait no longer. -/
theorem Sound.commit {w v : RelayWorld σ} {b : Batch} {writes : List Empty} (sound : relay.Sound ⟨.delivering [] b, w⟩)
    (committed : w.store.tryCommit b.tx = (.ok writes, v.store)) :
    v.store.records.map (·.id) = w.store.records.map (·.id) ∧
      w.store.pending.length = v.store.pending.length + (b.report.processed + b.report.skipped) ∧
      (b.report.isFull relay.batchSize = true → b.report.processed + b.report.skipped = relay.batchSize) := by
  obtain ⟨turns, underway, waiting, -⟩ := sound.batch [] b rfl
  rw [List.append_nil] at waiting
  have records := underway.committed waiting sound.distinct committed
  have counted : b.report = .ofTurns turns := underway.report
  refine ⟨?_, ?_, fun full => ?_⟩
  · rw [records, List.map_map]
    exact List.map_congr_left fun r _ => congrArg NewRecord.id OutboxRecord.after_written
  · rw [OutboxStore.pending, OutboxStore.pending, records, counted]
    exact waiting.pending_eq sound.distinct
  · have total := BatchReport.ofTurns_total turns
    rw [← counted] at total
    simp only [BatchReport.isFull, Bool.and_eq_true, beq_iff_eq] at full
    omega

/-- Only a commit changes rows. -/
theorem Moves.records (tame : relay.Tame) (moves : relay.Moves s x t) (uncommitted : ∀ report, x ≠ .committed report) :
    t.world.store.records = s.world.store.records := by
  cases moves with
  | fails untold rows state idle => exact rows
  | @begins w v rows b untold begun state =>
    have records := (relay.begin_writes w.store).1
    rwa [begun] at records
  | @turns w v r rows b c t turn =>
    have records := Batch.next_records tame.rows b r w
    rwa [turn] at records
  | @breaks w v r rows b t e turn =>
    have records := Batch.next_records tame.rows b r w
    rwa [turn] at records
  | @commits w v b writes committed state => exact absurd rfl (uncommitted b.report)
  | loses lost state => exact (OutboxStore.tryCommit_error lost).1
  | wakes w => exact tame.waits w
  | _ => rfl

theorem Moves.waiting (tame : relay.Tame) (sound : relay.Sound s) (moves : relay.Moves s x t) :
    s.waiting = t.waiting + x.settled := by
  by_cases uncommitted : ∀ report, x ≠ .committed report
  · have records := moves.records tame uncommitted
    have nothing : x.settled = 0 := by
      cases x with
      | committed report => exact absurd rfl (uncommitted report)
      | _ => rfl
    rw [PollState.waiting, PollState.waiting, OutboxStore.pending, OutboxStore.pending, records, nothing]
    rfl
  · simp only [not_forall, not_not] at uncommitted
    obtain ⟨report, rfl⟩ := uncommitted
    cases moves with
    | commits committed state => exact (sound.commit committed).2.1

theorem Moves.distinct (tame : relay.Tame) (sound : relay.Sound s) (moves : relay.Moves s x t) :
    (t.world.store.records.map (·.id)).Nodup := by
  by_cases uncommitted : ∀ report, x ≠ .committed report
  · rw [moves.records tame uncommitted]
    exact sound.distinct
  · simp only [not_forall, not_not] at uncommitted
    obtain ⟨report, rfl⟩ := uncommitted
    cases moves with
    | commits committed state => exact (sound.commit committed).1 ▸ sound.distinct

theorem Moves.sound (tame : relay.Tame) (sound : relay.Sound s) (moves : relay.Moves s x t) : relay.Sound t := by
  have distinct := moves.distinct tame sound
  have records := moves.records tame
  cases moves with
  | @begins w v rows b untold begun state =>
    have takes := relay.begin_takes w.store
    rw [begun] at takes
    have waiting : AreWaiting w.store.records rows := takes.1 ▸ OutboxStore.areWaiting_take sound.distinct _
    have few : rows.length ≤ relay.batchSize := takes.1 ▸ List.length_take_le _ _
    refine ⟨distinct, ?_⟩
    rintro _ _ ⟨⟩
    exact ⟨[], by simpa using Relay.begin_underway begun, records nofun ▸ waiting, by simpa using few⟩
  | @turns w v r rows b c t turn =>
    refine ⟨distinct, ?_⟩
    rintro _ _ ⟨⟩
    obtain ⟨done, underway, waiting, few⟩ := sound.batch (r :: rows) b rfl
    have length : (done ++ [(r, t)]).length + rows.length = done.length + (r :: rows).length := by
      simp only [List.length_append, List.length_cons, List.length_nil]
      omega
    have order : (done ++ [(r, t)]).map (·.1) ++ rows = done.map (·.1) ++ r :: rows := by simp
    refine ⟨done ++ [(r, t)], ?_, ?_, length ▸ few⟩
    · rw [length]
      exact underway.next turn
    · rw [order, records nofun]
      exact waiting
  | fails untold rows state idle =>
    refine .of_idle distinct ?_
    rcases idle with rfl | rfl <;> exact nofun
  | commits committed state =>
    refine .of_idle distinct fun rows b => ?_
    show (if _ then _ else _) ≠ _
    split <;> exact nofun
  | _ => exact .of_idle distinct nofun

/-- The loop goes on at once only behind a batch that was done with as many rows as it may take. -/
theorem Moves.ready (sound : relay.Sound s) (moves : relay.Moves s x t) (ready : t.place = .ready) :
    x = .woke ∨ ∃ report, x = .committed report ∧ report.processed + report.skipped = relay.batchSize := by
  cases moves with
  | fails untold rows state idle =>
    obtain rfl : _ = PollPlace.ready := ready
    simp at idle
  | @commits w v b writes committed state =>
    rcases full : b.report.isFull relay.batchSize with _ | _
    · simp [full] at ready
    · exact .inr ⟨b.report, rfl, (sound.commit committed).2.2 full⟩
  | wakes w => exact .inl rfl
  | _ => cases ready

/-- At most how many batches begin before the loop rests. -/
def budget (relay : PollingRelay σ γ) (s : PollState σ) : Nat :=
  match s.place with
  | .ready => s.waiting / relay.batchSize + 1
  | .delivering _ _ => s.waiting / relay.batchSize
  | _ => 0

theorem budget_le (relay : PollingRelay σ γ) (s : PollState σ) :
    relay.budget s ≤ s.waiting / relay.batchSize + 1 := by
  unfold PollingRelay.budget
  split <;> simp

theorem Moves.budget (tame : relay.Tame) (size : 1 ≤ relay.batchSize) (sound : relay.Sound s)
    (moves : relay.Moves s x t) (asleep : x ≠ .woke) : [x].count .began + relay.budget t ≤ relay.budget s := by
  have waits := moves.waiting tame sound
  have first := moves.ready sound
  cases moves with
  | stops told => simp [PollingRelay.budget]
  | fails untold rows state idle => rcases idle with rfl | rfl <;> simp [PollingRelay.budget]
  | begins untold begun state =>
    simp only [PollSign.settled, Nat.add_zero] at waits
    simp [PollingRelay.budget, waits, Nat.add_comm]
  | turns turn =>
    simp only [PollSign.settled, Nat.add_zero] at waits
    simp [PollingRelay.budget, waits]
  | breaks turn => simp [PollingRelay.budget]
  | @commits w v b writes committed state =>
    rcases full : b.report.isFull relay.batchSize with _ | _
    · simp [PollingRelay.budget]
    · have all := (sound.commit committed).2.2 full
      simp only [PollSign.settled, all] at waits
      simp [PollingRelay.budget, waits, full, Nat.add_div_right _ size]
  | loses lost state => simp [PollingRelay.budget]
  | wakes w => exact absurd rfl asleep
  | stays how w => simp [PollingRelay.budget]

/-- How many steps of its own a batch in progress takes at most. -/
def inProgress (s : PollState σ) : Nat :=
  match s.place with
  | .delivering rows _ => rows.length + 1
  | _ => 0

/-- At most how many steps the loop takes before it rests or ends. -/
def remaining (relay : PollingRelay σ γ) (s : PollState σ) : Nat :=
  relay.budget s * (relay.batchSize + 2) + inProgress s

theorem Moves.inProgress (tame : relay.Tame) (sound : relay.Sound s) (moves : relay.Moves s x t) (asleep : x ≠ .woke)
    (alive : ∀ how, t.place ≠ .ended how) :
    inProgress t + 1 ≤ inProgress s + [x].count .began * (relay.batchSize + 2) := by
  have later := moves.sound tame sound
  cases moves with
  | fails untold rows state idle => rcases idle with rfl | rfl <;> simp [PollingRelay.inProgress]
  | @begins w v rows b untold begun state =>
    obtain ⟨done, -, -, few⟩ := later.batch rows b rfl
    simp [PollingRelay.inProgress]
    omega
  | @commits w v b writes committed state =>
    rcases full : b.report.isFull relay.batchSize with _ | _ <;> simp [PollingRelay.inProgress]
  | wakes w => exact absurd rfl asleep
  | stops told => exact absurd rfl (alive .stopped)
  | stays how w => exact absurd rfl (alive how)
  | _ => simp [PollingRelay.inProgress]

theorem Moves.remaining (tame : relay.Tame) (size : 1 ≤ relay.batchSize) (sound : relay.Sound s)
    (moves : relay.Moves s x t) (asleep : x ≠ .woke) (alive : ∀ how, t.place ≠ .ended how) :
    relay.remaining t + 1 ≤ relay.remaining s := by
  have begun := moves.budget tame size sound asleep
  have spent := moves.inProgress tame sound asleep alive
  calc relay.remaining t + 1
      = relay.budget t * (relay.batchSize + 2) + (PollingRelay.inProgress t + 1) := rfl
    _ ≤ relay.budget t * (relay.batchSize + 2) +
          (PollingRelay.inProgress s + [x].count .began * (relay.batchSize + 2)) := Nat.add_le_add_left spent _
    _ = ([x].count .began + relay.budget t) * (relay.batchSize + 2) + PollingRelay.inProgress s := by
      rw [Nat.add_mul]
      omega
    _ ≤ relay.remaining s := Nat.add_le_add_right (Nat.mul_le_mul_right _ begun) _

theorem Sound.remaining_le (sound : relay.Sound s) :
    relay.remaining s ≤ (s.waiting / relay.batchSize + 1) * (relay.batchSize + 2) := by
  obtain ⟨place, w⟩ := s
  rw [PollingRelay.remaining, Nat.add_mul, Nat.one_mul]
  cases place with
  | ready => simp [PollingRelay.budget, PollingRelay.inProgress, Nat.add_mul]
  | delivering rows b =>
    obtain ⟨done, -, -, few⟩ := sound.batch rows b rfl
    simp only [PollingRelay.budget, PollingRelay.inProgress]
    omega
  | resting => simp [PollingRelay.budget, PollingRelay.inProgress]
  | ended how => simp [PollingRelay.budget, PollingRelay.inProgress]

/-- Where no step remains the loop rests or has ended. -/
theorem idle_of_remaining (none_left : relay.remaining s = 0) : s.place = .resting ∨ ∃ how, s.place = .ended how := by
  obtain ⟨place, w⟩ := s
  cases place with
  | ready => simp [PollingRelay.remaining, PollingRelay.budget] at none_left
  | delivering rows b => simp [PollingRelay.remaining, PollingRelay.inProgress] at none_left
  | resting => exact .inl rfl
  | ended how => exact .inr ⟨how, rfl⟩

theorem Moves.place_of_began (moves : relay.Moves s .began t) : s.place = .ready := by
  cases moves <;> rfl

/-- A step leaves a relay told that was told to stop, and it does not begin a batch then. -/
theorem Moves.told (tame : relay.Tame) (moves : relay.Moves s x t) (told : relay.cancelled s.world = true) :
    relay.cancelled t.world = true ∧ x ≠ .began := by
  have handled {p q : σ} {rows : List (OutboxRecord × Delivery)} (handles : relay.Handles p rows q) :
      ∀ w v : RelayWorld σ, w.state = p → v.state = q → relay.cancelled w = true → relay.cancelled v = true := by
    induction handles with
    | none p =>
      intro w v before after told
      rwa [tame.looks v w (after.trans before.symm)]
    | @call handler r u rows q wanted rest ih =>
      intro w v before after told
      rw [tame.looks w u before] at told
      exact ih _ v rfl after (tame.handled handler r u told)
  have turned {r : OutboxRecord} {b : Batch} {w : RelayWorld σ} (v : RelayWorld σ)
      (state : v.state = (b.next relay.toRelay r w).2.2.state) (told : relay.cancelled w = true) :
      relay.cancelled v = true :=
    handled (Batch.next_handles relay.toRelay b r w) w v rfl state told
  cases moves with
  | fails untold rows state idle => exact absurd (told.symm.trans untold) nofun
  | begins untold begun state => exact absurd (told.symm.trans untold) nofun
  | turns turn => exact ⟨turned _ (by rw [turn]) told, nofun⟩
  | breaks turn => exact ⟨turned _ (by rw [turn]) told, nofun⟩
  | commits committed state => exact ⟨(tame.looks _ _ state).trans told, nofun⟩
  | loses lost state => exact ⟨(tame.looks _ _ state).trans told, nofun⟩
  | wakes w => exact ⟨tame.waited w told, nofun⟩
  | _ => exact ⟨told, nofun⟩

end PollingRelay

end Workboard
