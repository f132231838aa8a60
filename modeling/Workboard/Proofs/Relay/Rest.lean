import Workboard.Proofs.Relay.Loop

/-!
The loop that delivers batches comes to rest. At any moment it begins only so many batches before it sleeps as the
rows that wait can fill, and it goes on at once only where a full batch was done with; being told to stop, it
finishes the batch in progress and begins no other.
-/

namespace Workboard

variable {σ γ : Type}

/-- The rows have their turns, and then the batch is committed or lost; or it breaks at a mark that is to fail. -/
inductive PollSign.Finishes : List OutboxRecord → List PollSign → Prop
  | commits (report : BatchReport) (rest : List PollSign) : Finishes [] (.committed report :: rest)
  | loses (e : OutboxError) (rest : List PollSign) : Finishes [] (.lost e :: rest)
  | breaks {r : OutboxRecord} {rows : List OutboxRecord} {e : OutboxError} {rest : List PollSign}
      (marks : e = OutboxCall.markProcessed.fault ∨ e = OutboxCall.markFailed.fault) :
      Finishes (r :: rows) (.broke e :: rest)
  | turns {r : OutboxRecord} {rows : List OutboxRecord} {t : Turn} {rest : List PollSign}
      (later : Finishes rows rest) : Finishes (r :: rows) (.turn r t :: rest)

/-- A batch may begin: nothing was done so far, or the loop has just slept, or it has just committed a full batch. -/
def PollSign.Resumes (size : Nat) (signs : List PollSign) : Prop :=
  ∀ x, signs.getLast? = some x →
    x = .woke ∨ ∃ report, x = .committed report ∧ report.processed + report.skipped = size

namespace PollingRelay

/-- What the steps of the loop preserve, and what others do as well, holds of all that follows. -/
theorem follow_induction {relay : PollingRelay σ γ} (tame : relay.Tame)
    {P : PollState σ → List PollSign → PollState σ → Prop} (stay : ∀ {s}, relay.Sound s → P s [] s)
    (step : ∀ {s x t signs u}, relay.Sound s → relay.Moves s x t → P t signs u → P s (x :: signs) u)
    (others : ∀ {s change signs u}, relay.Harmless change → P ⟨s.place, change s.world⟩ signs u → P s signs u)
    {acts : List (PollAct σ)} (harmless : ∀ change, .others change ∈ acts → relay.Harmless change) {s : PollState σ}
    (sound : relay.Sound s) : P s (relay.follow s acts).1 (relay.follow s acts).2 := by
  induction acts generalizing s with
  | nil => exact stay sound
  | cons a acts ih =>
    have later : ∀ change, .others change ∈ acts → relay.Harmless change := fun change mem =>
      harmless change (List.mem_cons_of_mem _ mem)
    cases a with
    | step =>
      have moves := relay.step_moves s
      exact step sound moves (ih later (moves.sound tame sound))
    | others change =>
      have mild := harmless change List.mem_cons_self
      exact others mild (ih later (sound.others mild))

theorem follow_append (relay : PollingRelay σ γ) (s : PollState σ) (past future : List (PollAct σ)) :
    relay.follow s (past ++ future) = ((relay.follow s past).1 ++ (relay.follow (relay.follow s past).2 future).1,
      (relay.follow (relay.follow s past).2 future).2) := by
  induction past generalizing s with
  | nil => rfl
  | cons a past ih => simp [follow, ih]

section follow

variable {relay : PollingRelay σ γ} (tame : relay.Tame) {acts : List (PollAct σ)}
  (harmless : ∀ change, .others change ∈ acts → relay.Harmless change) {s : PollState σ} (sound : relay.Sound s)

include tame harmless sound

theorem follow_sound : relay.Sound (relay.follow s acts).2 :=
  follow_induction (P := fun _ _ u => relay.Sound u) tame id (fun _ _ h => h) (fun _ h => h) harmless sound

theorem follow_waiting : (relay.follow s acts).2.waiting ≤ s.waiting := by
  refine follow_induction (P := fun s _ u => u.waiting ≤ s.waiting) tame ?_ ?_ ?_ harmless sound
  · exact fun _ => Nat.le_refl _
  · intro s x t signs u sound moves later
    have first := moves.waiting tame sound
    omega
  · intro s change signs u mild later
    have same : PollState.waiting ⟨s.place, change s.world⟩ = s.waiting := by
      simp [PollState.waiting, OutboxStore.pending, mild.rows]
    exact same ▸ later

theorem follow_budget (size : 1 ≤ relay.batchSize) (asleep : .woke ∉ (relay.follow s acts).1) :
    (relay.follow s acts).1.count .began + relay.budget (relay.follow s acts).2 ≤ relay.budget s := by
  refine follow_induction
    (P := fun s signs u => .woke ∉ signs → signs.count .began + relay.budget u ≤ relay.budget s)
    tame ?_ ?_ ?_ harmless sound asleep
  · intro s _ _
    simp
  · intro s x t signs u sound moves later asleep
    obtain ⟨first, rest⟩ := not_or.mp (mt List.mem_cons.mpr asleep)
    have begun := moves.budget tame size sound (Ne.symm first)
    have more := later rest
    rw [← List.singleton_append, List.count_append]
    omega
  · intro s change signs u mild later asleep
    have same : relay.budget ⟨s.place, change s.world⟩ = relay.budget s := by
      simp [budget, PollState.waiting, OutboxStore.pending, mild.rows]
    exact same ▸ later asleep

-- An ended loop takes steps for ever, so the measure tells how many there are only while the loop is alive; that it
-- was alive in between follows from its being so at the end.
theorem follow_remaining (size : 1 ≤ relay.batchSize) (asleep : .woke ∉ (relay.follow s acts).1)
    (alive : ∀ how, (relay.follow s acts).2.place ≠ .ended how) :
    (relay.follow s acts).1.length + relay.remaining (relay.follow s acts).2 ≤ relay.remaining s := by
  refine (follow_induction
    (P := fun s signs u => (∀ how, s.place = .ended how → u.place = .ended how) ∧
      (.woke ∉ signs → (∀ how, u.place ≠ .ended how) → signs.length + relay.remaining u ≤ relay.remaining s))
    tame ?_ ?_ ?_ harmless sound).2 asleep alive
  · intro s _
    exact ⟨fun _ h => h, fun _ _ => by simp⟩
  · intro s x t signs u sound moves later
    refine ⟨fun how ended => ?_, fun asleep alive => ?_⟩
    · cases moves with
      | stays how w => exact later.1 _ ended
      | _ => cases ended
    · obtain ⟨first, rest⟩ := not_or.mp (mt List.mem_cons.mpr asleep)
      have going : ∀ how, t.place ≠ .ended how := fun how ended => alive how (later.1 how ended)
      have spent := moves.remaining tame size sound (Ne.symm first) going
      have more := later.2 rest alive
      rw [List.length_cons]
      omega
  · intro s change signs u mild later
    have same : relay.remaining ⟨s.place, change s.world⟩ = relay.remaining s := by
      simp [remaining, budget, inProgress, PollState.waiting, OutboxStore.pending, mild.rows]
    exact ⟨later.1, same ▸ later.2⟩

theorem follow_told (told : relay.cancelled s.world = true) : .began ∉ (relay.follow s acts).1 := by
  refine follow_induction (P := fun s signs _ => relay.cancelled s.world = true → .began ∉ signs)
    tame (fun _ _ => List.not_mem_nil) ?_ ?_ harmless sound told
  · intro s x t signs u sound moves later told
    obtain ⟨still, other⟩ := moves.told tame told
    exact mt List.mem_cons.mp (not_or.mpr ⟨Ne.symm other, later still⟩)
  · exact fun mild later told => later (mild.told _ told)

/-- A batch in progress is finished by as many steps as it has rows to come, and one more. -/
theorem follow_finishes {rows : List OutboxRecord} {b : Batch} (place : s.place = .delivering rows b)
    (enough : rows.length < (relay.follow s acts).1.length) : PollSign.Finishes rows (relay.follow s acts).1 := by
  refine follow_induction
    (P := fun s signs _ => ∀ rows b, s.place = .delivering rows b → rows.length < signs.length →
      PollSign.Finishes rows signs)
    tame ?_ ?_ (fun _ h => h) harmless sound rows b place enough
  · intro s _ rows b _ enough
    cases enough
  · intro s x t signs u sound moves later rows b place enough
    cases moves with
    | turns turn =>
      cases place
      exact .turns (later _ _ rfl (Nat.lt_of_succ_lt_succ enough))
    | @breaks w v r rest b t e turn =>
      obtain ⟨done, -, waiting, -⟩ := sound.batch (r :: rest) b rfl
      have row : r ∈ w.store.records := (waiting.waits r (by simp)).1
      cases place
      exact .breaks (Batch.next_error tame.rows row turn)
    | commits committed state =>
      cases place
      exact .commits _ _
    | loses lost state =>
      cases place
      exact .loses _ _
    | _ => cases place

theorem follow_resumes (ready : (relay.follow s acts).2.place = .ready) :
    PollSign.Resumes relay.batchSize (relay.follow s acts).1 := by
  refine (follow_induction
    (P := fun s signs u => u.place = .ready → PollSign.Resumes relay.batchSize signs ∧ (signs = [] → s.place = .ready))
    tame ?_ ?_ (fun _ h => h) harmless sound ready).1
  · intro s _ ready
    refine ⟨fun x last => ?_, fun _ => ready⟩
    cases last
  · intro s x t signs u sound moves later ready
    obtain ⟨resumes, first⟩ := later ready
    refine ⟨fun y last => ?_, nofun⟩
    rcases end_ : signs.getLast? with _ | z
    · rw [List.getLast?_eq_none_iff] at end_
      subst end_
      cases last
      exact moves.ready sound (first rfl)
    · rw [List.getLast?_cons, end_] at last
      exact resumes y (end_.trans last)

end follow

section run

variable {relay : PollingRelay σ γ} {s t u : PollState σ}

/-- By steps of its own alone the loop gets from one state to another, and begins a number of batches meanwhile. -/
def Reaches (relay : PollingRelay σ γ) (s : PollState σ) (batches : Nat) (t : PollState σ) : Prop :=
  ∃ steps, (relay.follow s (List.replicate steps .step)).2 = t ∧
    (relay.follow s (List.replicate steps .step)).1.count .began = batches

variable {n m : Nat}

theorem Reaches.refl (relay : PollingRelay σ γ) (s : PollState σ) : relay.Reaches s 0 s := ⟨0, rfl, rfl⟩

theorem Reaches.trans (first : relay.Reaches s n t) (second : relay.Reaches t m u) : relay.Reaches s (n + m) u := by
  obtain ⟨i, rfl, rfl⟩ := first
  obtain ⟨j, rfl, rfl⟩ := second
  refine ⟨i + j, ?_, ?_⟩ <;> rw [← List.replicate_append_replicate, follow_append]
  exact List.count_append

theorem Reaches.step {x : PollSign} (moves : relay.step s = (x, t)) : relay.Reaches s ([x].count .began) t :=
  ⟨1, by simp [follow, act, moves], by simp [follow, act, moves]⟩

/-- The rows of a batch have their turns one by one. -/
theorem reaches_deliver (relay : PollingRelay σ γ) (rows : List OutboxRecord) (b : Batch) (w : RelayWorld σ) :
    relay.Reaches ⟨.delivering rows b, w⟩ 0
      (match (b.deliver relay.toRelay rows w).2 with
      | (.ok c, v) => ⟨.delivering [] c, v⟩
      | (.error _, v) => ⟨.resting, v⟩) := by
  induction rows generalizing b w with
  | nil => exact .refl _ _
  | cons r rows ih =>
    rcases turn : b.next relay.toRelay r w with ⟨t, e | c, v⟩
    · have broke : relay.step ⟨.delivering (r :: rows) b, w⟩ =
          (.broke e, ⟨.resting, { v with store := v.store.rollback b.tx }⟩) := by
        simp only [PollingRelay.step, turn]
      rw [Batch.deliver_cons_error turn]
      exact .step broke
    · have turned : relay.step ⟨.delivering (r :: rows) b, w⟩ = (.turn r t, ⟨.delivering rows c, v⟩) := by
        simp only [PollingRelay.step, turn]
      rw [Batch.deliver_cons_ok turn]
      exact (Reaches.step turned).trans (ih c v)

/-- A relay that is not told to stop delivers one batch. -/
theorem reaches_batch {w : RelayWorld σ} (untold : relay.cancelled w = false) :
    relay.Reaches (.ready w) 1
      (match relay.processBatch w with
      | (.error (.panicked _), v) => ⟨.ended .panicked, v⟩
      | (r, v) => ⟨if relay.goesOn r then .ready else .resting, v⟩) := by
  rw [Relay.processBatch, Relay.runBatch]
  rcases begun : relay.begin w.store with ⟨(e | reason) | ⟨rows, b⟩, store⟩
  · have began : relay.step (.ready w) = (.began, ⟨.resting, { w with store := store }⟩) := by
      simp [PollingRelay.step, PollState.ready, untold, begun]
    exact .step began
  · have began : relay.step (.ready w) = (.began, ⟨.ended .panicked, { w with store := store }⟩) := by
      simp [PollingRelay.step, PollState.ready, untold, begun]
    exact .step began
  have began : relay.step (.ready w) = (.began, ⟨.delivering rows b, { w with store := store }⟩) := by
    simp [PollingRelay.step, PollState.ready, untold, begun]
  have delivers := (Reaches.step began).trans (relay.reaches_deliver rows b { w with store := store })
  rcases delivered : b.deliver relay.toRelay rows { w with store := store } with ⟨turns, e | c, v⟩ <;>
    rw [delivered] at delivers
  · simpa [delivered, goesOn] using delivers
  rcases ended : v.store.tryCommit c.tx with ⟨e | writes, store'⟩
  · have lost : relay.step ⟨.delivering [] c, v⟩ = (.lost e, ⟨.resting, { v with store := store' }⟩) := by
      simp only [PollingRelay.step, ended]
    simpa [delivered, ended, goesOn] using delivers.trans (.step lost)
  · have committed : relay.step ⟨.delivering [] c, v⟩ = (.committed c.report,
        ⟨if c.report.isFull relay.batchSize then .ready else .resting, { v with store := store' }⟩) := by
      simp only [PollingRelay.step, ended]
    simp only [delivered, ended]
    exact delivers.trans (.step committed)

/-- The loop was run from a state on: it got where it left off, and has begun one batch in each round. -/
def Runs (relay : PollingRelay σ γ) (s : PollState σ) (fuel : Nat) (out : LoopEnd × RelayWorld σ) : Prop :=
  ∃ batches ≤ fuel, relay.Reaches s batches (.ofRun out) ∧ (out.1 = .outOfFuel → batches = fuel)

theorem Reaches.runs {fuel : Nat} {out : LoopEnd × RelayWorld σ} (first : relay.Reaches s n t)
    (later : relay.Runs t fuel out) : relay.Runs s (n + fuel) out := by
  obtain ⟨batches, most, reaches, all⟩ := later
  refine ⟨n + batches, Nat.add_le_add_left most n, first.trans reaches, fun spent => ?_⟩
  rw [all spent]

/-- The loop is made of its steps, and each of its rounds is one batch. -/
theorem runs_run (relay : PollingRelay σ γ) (fuel : Nat) (w : RelayWorld σ) :
    relay.Runs (.ready w) fuel (relay.run fuel w) := by
  induction fuel generalizing w with
  | zero => exact ⟨0, Nat.le_refl 0, .refl _ _, fun _ => rfl⟩
  | succ fuel ih =>
    rw [run, Nat.add_comm]
    rcases untold : relay.cancelled w with _ | _
    · have batch := reaches_batch untold
      have wakes (v : RelayWorld σ) : relay.Reaches ⟨.resting, v⟩ 0 (.ready (relay.wait v)) := .step rfl
      rcases result : relay.processBatch w with ⟨(e | reason) | report, v⟩ <;> rw [result] at batch
      · exact (batch.trans (wakes v)).runs (ih _)
      · refine ⟨1, Nat.le_add_right 1 fuel, batch, ?_⟩
        rintro ⟨⟩
      · rcases more : relay.goesOn (.ok report) with _ | _ <;> simp only [more] at batch ⊢
        · exact (batch.trans (wakes v)).runs (ih _)
        · exact batch.runs (ih v)
    · have stopped : relay.step (.ready w) = (.ended .stopped, ⟨.ended .stopped, w⟩) := by
        simp [PollingRelay.step, PollState.ready, untold]
      refine ⟨0, Nat.zero_le _, .step stopped, ?_⟩
      rintro ⟨⟩

end run

/-- The loop does not spin. Whatever rows there are, however handlers answer, and whatever others do meanwhile short of
changing rows: from any moment on, the loop begins no more batches before it sleeps than the rows that wait can fill
and one more, and so many steps on it has slept or ended; a batch follows at once only a full one that was done with
all its rows; a batch in progress is finished in any case, and a loop that is told to stop begins no other. -/
theorem polls_without_spinning (relay : PollingRelay σ γ) (tame : relay.Tame) (size : 1 ≤ relay.batchSize)
    (w : RelayWorld σ) (distinct : (w.store.records.map (·.id)).Nodup) (past future : List (PollAct σ))
    (harmless : ∀ change, .others change ∈ past ++ future → relay.Harmless change) :
    let most := w.store.pending.length / relay.batchSize + 1
    let told := (relay.follow (.ready w) past).1
    let s := (relay.follow (.ready w) past).2
    let signs := (relay.follow s future).1
    let t := (relay.follow s future).2
    (.woke ∉ signs → signs.count .began ≤ most) ∧
    (most * (relay.batchSize + 2) ≤ signs.length →
      .woke ∈ signs ∨ t.place = .resting ∨ ∃ how, t.place = .ended how) ∧
    ((relay.step s).1 = .began → PollSign.Resumes relay.batchSize told) ∧
    (∀ report, (relay.step s).1 = .committed report →
      s.waiting = (relay.step s).2.waiting + (report.processed + report.skipped)) ∧
    (∀ rows b, s.place = .delivering rows b → rows.length < signs.length → PollSign.Finishes rows signs) ∧
    (relay.cancelled s.world = true → .began ∉ signs) ∧
    ∀ fuel, relay.Runs (.ready w) fuel (relay.run fuel w) := by
  intro most told s signs t
  have start : relay.Sound (.ready w) := .of_idle distinct nofun
  have before : ∀ change, .others change ∈ past → relay.Harmless change := fun change mem =>
    harmless change (List.mem_append_left _ mem)
  have after : ∀ change, .others change ∈ future → relay.Harmless change := fun change mem =>
    harmless change (List.mem_append_right _ mem)
  have sound : relay.Sound s := follow_sound tame before start
  have fewer : s.waiting ≤ w.store.pending.length := follow_waiting tame before start
  have moves := relay.step_moves s
  have least : s.waiting / relay.batchSize + 1 ≤ most := Nat.succ_le_succ (Nat.div_le_div_right fewer)
  refine ⟨fun asleep => ?_, fun long => ?_, fun began => ?_, fun report committed => ?_, ?_, ?_, ?_⟩
  · have spent := follow_budget tame after sound size asleep
    calc signs.count .began ≤ relay.budget s := Nat.le_trans (Nat.le_add_right _ _) spent
      _ ≤ s.waiting / relay.batchSize + 1 := relay.budget_le s
      _ ≤ most := least
  -- a loop that is awake and alive has spent all its steps by then
  · by_cases asleep : .woke ∉ signs
    · by_cases alive : ∀ how, t.place ≠ .ended how
      · have spent := follow_remaining tame after sound size asleep alive
        have steps := Nat.le_trans sound.remaining_le (Nat.mul_le_mul_right (relay.batchSize + 2) least)
        have none_left : relay.remaining t = 0 := by
          change signs.length + relay.remaining t ≤ relay.remaining s at spent
          omega
        exact .inr (idle_of_remaining none_left)
      · exact .inr (.inr (not_forall_not.mp alive))
    · exact .inl (not_not.mp asleep)
  · rw [began] at moves
    exact follow_resumes tame before start moves.place_of_began
  · have waits := moves.waiting tame sound
    rw [committed] at waits
    exact waits
  · exact fun rows b place enough => follow_finishes tame after sound place enough
  · exact fun cancelled => follow_told tame after sound cancelled
  · exact fun fuel => relay.runs_run fuel w

/-- A relay that takes one row at a time; its state tells whether it is to stop. -/
def oneByOne : PollingRelay Bool Unit where
  registry := HandlerRegistry.empty.register "todo.created" ()
  handle _ _ w := (.accepted, w)
  batchSize := 1
  now := Relay.firstRow.createdAt
  cancelled w := w.state
  wait w := w

theorem oneByOne_tame : oneByOne.Tame where
  rows _ _ _ := rfl
  waits _ := rfl
  looks _ _ same := same
  handled _ _ _ told := told
  waited _ told := told

def twoRows : RelayWorld Bool := ⟨⟨[.ofNew Relay.firstRow, Relay.otherRow], [], false, .none⟩, [], false⟩

/-- A batch begins, and someone tells the relay to stop. -/
def stoppedInBatch : List (PollAct Bool) := [.step, .others fun w => { w with state := true }]

/-- Told to stop with a row in hand, the relay delivers and commits that row and leaves the other one. -/
theorem polls_without_spinning_stopped :
    let s := (oneByOne.follow (.ready twoRows) stoppedInBatch).2
    let signs := (oneByOne.follow s (List.replicate 3 .step)).1
    signs = [.turn (.ofNew Relay.firstRow) (.handed .accepted), .committed ⟨1, 1, 0, 0, 0⟩, .ended .stopped] ∧
      PollSign.Finishes [.ofNew Relay.firstRow] signs ∧ .began ∉ signs := by
  intro s signs
  let taken : Batch := .start ⟨[], [], [], [⟨1⟩]⟩ [.ofNew Relay.firstRow]
  let held : OutboxStore := { twoRows.store with claimed := [⟨1⟩] }
  have queue : twoRows.store.available = [.ofNew Relay.firstRow, Relay.otherRow] :=
    OutboxStore.available_of_pairwise (by decide)
  have begun : oneByOne.begin twoRows.store = (.ok ([.ofNew Relay.firstRow], taken), held) := by
    rw [Relay.begin_of_calm oneByOne.toRelay rfl, OutboxStore.fetchPending, queue]
    rfl
  have began : (oneByOne.step (.ready twoRows)).2 = ⟨.delivering [.ofNew Relay.firstRow] taken, ⟨held, [], false⟩⟩ := by
    simp only [step, PollState.ready, begun]
    rfl
  have state : s = ⟨.delivering [.ofNew Relay.firstRow] taken, ⟨held, [], true⟩⟩ := by
    simp only [s, stoppedInBatch, follow, act, began]
  have told : signs = [.turn (.ofNew Relay.firstRow) (.handed .accepted), .committed ⟨1, 1, 0, 0, 0⟩,
      .ended .stopped] := by
    simp only [signs, state]
    rfl
  have harmless : ∀ change, PollAct.others change ∈ stoppedInBatch ++ List.replicate 3 .step →
      oneByOne.Harmless change := by
    intro change mem
    obtain rfl : change = fun w => { w with state := true } := by simpa [stoppedInBatch] using mem
    exact ⟨fun _ => rfl, fun _ _ => rfl⟩
  obtain ⟨-, -, -, -, finishes, stops, -⟩ := polls_without_spinning oneByOne oneByOne_tame (Nat.le_refl 1) twoRows
    (by decide) stoppedInBatch (List.replicate 3 .step) harmless
  refine ⟨told, finishes _ taken (congrArg PollState.place state) ?_, stops (congrArg (·.world.state) state)⟩
  show 1 < signs.length
  rw [told]
  exact Nat.lt_of_sub_eq_succ rfl

end PollingRelay

end Workboard
