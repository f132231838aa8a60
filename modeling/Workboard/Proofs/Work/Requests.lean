import Workboard.Work.Requests
import Workboard.Proofs.Outbox.Calls
import Workboard.Proofs.Work.Commit

/-!
Once and in order. What work asks of its transaction is gathered there as it is asked, and an execution that
commits does just that: it writes one row for each event that was published, and carries out each write and
runs each hook once.
-/

namespace Workboard

/-- Every hook runs, whatever becomes of those before it. -/
theorem runHooks_eq_foldl {η ω : Type} (perform : η → ω → HookEnd × ω) (hooks : List η) (w : ω) :
    runHooks perform hooks w = hooks.foldl (fun w hook => (perform hook w).2) w := by
  induction hooks generalizing w with
  | nil => rfl
  | cons hook hooks ih =>
    rw [runHooks, List.foldl_cons]
    split
    all_goals
      next ran => rw [ih, ran]

namespace IdSupply

/-- The supply after some identifiers were drawn. -/
def skip (s : IdSupply) (n : Nat) : IdSupply := { s with used := s.used + n }

theorem skip_skip (s : IdSupply) (m n : Nat) : (s.skip m).skip n = s.skip (m + n) := by
  simp [skip, Nat.add_assoc]

end IdSupply

namespace Publication

theorem rows_cons (ids : IdSupply) (now : Instant) (c : Publication) (published : List Publication) :
    rows ids now (c :: published) = c.row (ids.nth ids.used) now :: rows ids.fresh.2 now published := by
  simp [rows, IdSupply.fresh, List.mapIdx_cons, Nat.add_comm, Nat.add_left_comm]

theorem rows_append (ids : IdSupply) (now : Instant) (published more : List Publication) :
    rows ids now (published ++ more) =
      rows ids now published ++ rows (ids.skip published.length) now more := by
  simp [rows, IdSupply.skip, List.mapIdx_append, Nat.add_comm, Nat.add_left_comm]

end Publication

namespace Collected

def Accepted (c : Collected) : Prop := ∀ e ∈ c.events, ∃ mapped, c.mapper e = .ok mapped

theorem records_accepted (kind : String) (aggregate : Uuid) {mapper : EventMapper} {events : List TodoEvent}
    (accepted : ∀ e ∈ events, ∃ mapped, mapper e = .ok mapped) (now : Instant) (ids : IdSupply) :
    let published := (Collected.mk kind aggregate events mapper).published
    records kind aggregate mapper now events ids =
      .ok (Publication.rows ids now published, ids.skip published.length) := by
  induction events generalizing ids with
  | nil => rfl
  | cons e events ih =>
    have rest := ih (fun e he => accepted e (List.mem_cons_of_mem _ he))
    obtain ⟨_ | m, mapped⟩ := accepted e List.mem_cons_self
    · have skipped : mapper.mapped? e = none := by simp [EventMapper.mapped?, mapped]
      simpa [records, mapped, Collected.published, skipped] using rest ids
    · have kept : mapper.mapped? e = some m := by simp [EventMapper.mapped?, mapped]
      have drawn : ids.fresh.2 = ids.skip 1 := rfl
      simp only [records, mapped, rest, Collected.published, kept, List.filterMap_cons, List.map_cons,
        List.length_cons, Publication.rows_cons, drawn, IdSupply.skip_skip, Nat.add_comm]
      rfl

/-- Where nothing is refused, everything that was collected becomes rows in the order of collection. -/
theorem flush_accepted {cs : List Collected} (accepted : ∀ c ∈ cs, c.Accepted) (now : Instant)
    (ids : IdSupply) :
    flush now cs ids = .ok (Publication.rows ids now (cs.flatMap published),
      ids.skip (cs.flatMap published).length) := by
  induction cs generalizing ids with
  | nil => rfl
  | cons c cs ih =>
    have rest := ih (fun c hc => accepted c (List.mem_cons_of_mem _ hc))
    have first := records_accepted c.aggregateType c.aggregateId (accepted c List.mem_cons_self) now ids
    simp only [flush, first, rest, List.flatMap_cons, Publication.rows_append, List.length_append,
      IdSupply.skip_skip]

end Collected

namespace Scope

variable {η : Type} (s : Scope η)

/-- What a scope gathers from a to-do: its pending events, if there are any. -/
theorem collect_collected (mapper : EventMapper) (t : TrackedTodo) :
    (s.collect mapper t).2.collected = s.collected ∨ (s.collect mapper t).2.collected =
      s.collected ++ [⟨TrackedTodo.kind, t.todo.id.uuid, t.pending, mapper⟩] := by
  unfold collect
  dsimp only
  split
  next => exact .inl rfl
  next => exact .inr rfl

theorem collect_published (mapper : EventMapper) (t : TrackedTodo) :
    (s.collect mapper t).2.collected.flatMap Collected.published =
      s.collected.flatMap Collected.published ++ (Request.collect (η := η) mapper t).published := by
  unfold collect
  dsimp only
  split
  next nothing =>
    have none_left : t.pending = [] := List.isEmpty_iff.mp nothing
    simp [Request.published, none_left]
  next => exact List.flatMap_append.trans (congrArg _ (List.append_nil _))

@[simp] theorem collect_hooks (mapper : EventMapper) (t : TrackedTodo) :
    (s.collect mapper t).2.hooks = s.hooks := by
  unfold collect
  dsimp only
  split <;> rfl

/-- A to-do that was collected has nothing more to tell. -/
theorem collect_again (mapper other : EventMapper) (t : TrackedTodo) :
    (s.collect mapper t).2.collect other (s.collect mapper t).1 = s.collect mapper t := by
  unfold collect
  dsimp only
  split <;> rfl

end Scope

/-- Some work has asked for some things since an earlier moment, and all of them are in its scope. -/
structure Progress.Asks {σ η : Type} (p q : Progress σ η) (asked : List (Request η)) : Prop where
  now : q.db.now = p.db.now
  published : q.scope.collected.flatMap Collected.published =
    p.scope.collected.flatMap Collected.published ++ asked.flatMap Request.published
  accepted : (∀ c ∈ p.scope.collected, c.Accepted) → (∀ r ∈ asked, r.Accepted) →
    ∀ c ∈ q.scope.collected, c.Accepted
  staged : q.scope.tx.staged = p.scope.tx.staged ++ asked.filterMap Request.write?
  hooks : q.scope.hooks = p.scope.hooks ++ asked.filterMap Request.hook?
  follows : ∀ calls, p.scope.tx.Follows calls p.db.outbox.records →
    q.scope.tx.Follows (calls ++ asked.filterMap Request.call?) q.db.outbox.records

namespace Progress.Asks

variable {σ η : Type} {p q r : Progress σ η} {asked more : List (Request η)}

theorem nothing (now : q.db.now = p.db.now) (scope : q.scope = p.scope)
    (records : q.db.outbox.records = p.db.outbox.records) : p.Asks q [] := by
  constructor <;> simp [now, scope, records]

theorem trans (h : p.Asks q asked) (h' : q.Asks r more) : p.Asks r (asked ++ more) := by
  constructor
  · exact h'.now.trans h.now
  · rw [h'.published, h.published, List.flatMap_append, List.append_assoc]
  · intro first all
    apply h'.accepted (h.accepted first fun r hr => all r (List.mem_append_left _ hr))
    exact fun r hr => all r (List.mem_append_right _ hr)
  · rw [h'.staged, h.staged, List.filterMap_append, List.append_assoc]
  · rw [h'.hooks, h.hooks, List.filterMap_append, List.append_assoc]
  · intro calls follows
    rw [List.filterMap_append, ← List.append_assoc]
    exact h'.follows _ (h.follows calls follows)

theorem since (h : q.Asks r asked) (now : q.db.now = p.db.now) (scope : q.scope = p.scope)
    (records : q.db.outbox.records = p.db.outbox.records) : p.Asks r asked :=
  (nothing now scope records).trans h

theorem collect (p : Progress σ η) (mapper : EventMapper) (t : TrackedTodo) :
    p.Asks { p with scope := (p.scope.collect mapper t).2 } [.collect mapper t] := by
  constructor
  · rfl
  · simpa using p.scope.collect_published mapper t
  · intro first all c hc
    rcases p.scope.collect_collected mapper t with same | added
    · exact first c (same ▸ hc)
    · rcases List.mem_append.mp (added ▸ hc) with old | new
      · exact first c old
      · obtain rfl := List.mem_singleton.mp new
        exact all _ List.mem_cons_self
  · simp [Request.write?]
  · simp [Request.hook?]
  · intro calls follows
    change (p.scope.collect mapper t).2.tx.Follows (calls ++ []) _
    rwa [Scope.collect_tx, List.append_nil]

theorem stage (p : Progress σ η) (write : StagedWrite) :
    p.Asks { p with scope := p.scope.stage write } [.stage write] := by
  constructor
  · rfl
  · simp [Scope.stage, Request.published]
  · exact fun first _ => first
  · rfl
  · simp [Scope.stage, Request.hook?]
  · intro calls follows
    change (p.scope.tx.stage write).Follows (calls ++ []) _
    rw [List.append_nil]
    exact follows.stage write

theorem afterCommit (p : Progress σ η) (hook : η) :
    p.Asks { p with scope := p.scope.afterCommit hook } [.afterCommit hook] := by
  constructor
  · rfl
  · simp [Scope.afterCommit, Request.published]
  · exact fun first _ => first
  · simp [Scope.afterCommit, Request.write?]
  · rfl
  · intro calls follows
    change p.scope.tx.Follows (calls ++ []) _
    rwa [List.append_nil]

/-- A call is asked for if it goes well, and changes nothing otherwise. -/
theorem keep (p : Progress σ η) {r : Except OutboxError (Transaction StagedWrite) × OutboxStore}
    (made : RowCall) (quiet : p.db.outbox.Quiet p.scope.tx r)
    (done : ∀ tx store, r = (.ok tx, store) → tx.staged = p.scope.tx.staged ∧
      ∀ calls, p.scope.tx.Follows calls p.db.outbox.records →
        tx.Follows (calls ++ [made]) p.db.outbox.records) :
    p.Asks (p.keep r).2 (Request.answered made (p.keep r).1) := by
  obtain ⟨_ | tx, store⟩ := r
  · exact nothing rfl rfl quiet.records
  · obtain ⟨staged, follows⟩ := done tx store rfl
    constructor
    · rfl
    · simp [Progress.keep, Request.answered, Request.published]
    · exact fun first _ => first
    · exact staged.trans (List.append_nil _).symm
    · simp [Progress.keep, Request.answered, Request.hook?]
    · intro calls before
      have after := follows calls before
      rw [← quiet.records] at after
      exact after

end Progress.Asks

namespace Progress

variable {σ η : Type} (p : Progress σ η)

theorem asks_append (records : List NewRecord) :
    let answer := p.keep (p.db.outbox.tryAppend p.scope.tx records)
    p.Asks answer.2 (Request.answered (.append records) answer.1) := by
  refine .keep p _ (OutboxStore.quiet_tryAppend _ _ _) ?_
  intro tx store done
  obtain rfl := OutboxStore.tryAppend_ok done
  exact ⟨rfl, fun _ follows => follows.append records⟩

theorem asks_mark (u : RowUpdate) :
    let answer := p.keep (p.db.outbox.tryMark p.scope.tx u)
    p.Asks answer.2 (Request.answered (.mark u) answer.1) := by
  refine .keep p _ (OutboxStore.quiet_tryMark _ _ _) ?_
  intro tx store done
  obtain ⟨known, rfl⟩ := OutboxStore.tryMark_ok done
  exact ⟨rfl, fun _ follows => follows.mark known⟩

theorem asks_fetch (limit : Nat) :
    let fetched := p.db.outbox.tryFetch p.scope.tx limit
    p.Asks { p with db := { p.db with outbox := fetched.2.1 }, scope := { p.scope with tx := fetched.2.2 } }
      [] := by
  intro fetched
  have records : fetched.2.1.records = p.db.outbox.records := OutboxStore.tryFetch_records _ _ _
  constructor
  · rfl
  · exact (List.append_nil _).symm
  · exact fun first _ => first
  · exact (OutboxStore.tryFetch_staged _ _ _).trans (List.append_nil _).symm
  · exact (List.append_nil _).symm
  · intro calls follows
    change fetched.2.2.Follows (calls ++ []) fetched.2.1.records
    rw [List.append_nil, records]
    exact follows.tryFetch limit

end Progress

namespace Work

variable {σ η ε α : Type}

/-- While some work runs, its scope gathers what it asks for. -/
theorem run_asks (work : Work σ η ε α) (p : Progress σ η) : p.Asks (work.run p).2 (work.requests p) := by
  induction work generalizing p with
  | done ending => exact .nothing rfl rfl rfl
  | look next ih => exact ih _ p
  | note notes next ih => exact (ih _).since rfl rfl rfl
  | freshId next ih => exact (ih _ _).since rfl rfl rfl
  | find id next ih => exact ih _ p
  | collect mapper t next ih => exact (Progress.Asks.collect p mapper t).trans (ih _ _)
  | stage write next ih => exact (Progress.Asks.stage p write).trans (ih _)
  | append records next ih => exact (p.asks_append records).trans (ih _ _)
  | fetch limit next ih => exact (p.asks_fetch limit).trans (ih _ _)
  | markProcessed id next ih => exact (p.asks_mark (.processed id p.db.now)).trans (ih _ _)
  | markFailed id error next ih => exact (p.asks_mark (.failed id error)).trans (ih _ _)
  | afterCommit hook next ih => exact (Progress.Asks.afterCommit p hook).trans (ih _)
  | counts next ih => exact ih _ _ p
  | cancel next ih =>
    simp only [run, requests]
    split
    · exact (ih _).since rfl rfl rfl
    · exact ih p
  | sleep ms next ih =>
    simp only [run, requests]
    cases p.token.breakOff? p.clock ms with
    | some due => exact .nothing rfl rfl rfl
    | none => exact (ih _).since rfl rfl rfl

/-- Nested work asks within the same transaction as the work around it. -/
theorem requests_attempt (work : Work σ η ε α) (p : Progress σ η) :
    work.attempt.requests p = work.requests p := by
  induction work generalizing p with
  | done ending => cases ending <;> rfl
  | look next ih => exact ih _ p
  | note notes next ih => exact ih _
  | freshId next ih => exact ih _ _
  | find id next ih => exact ih _ p
  | collect mapper t next ih => exact congrArg _ (ih _ _)
  | stage write next ih => exact congrArg _ (ih _)
  | append records next ih => exact congrArg _ (ih _ _)
  | fetch limit next ih => exact ih _ _
  | markProcessed id next ih => exact congrArg _ (ih _ _)
  | markFailed id error next ih => exact congrArg _ (ih _ _)
  | afterCommit hook next ih => exact congrArg _ (ih _)
  | counts next ih => exact ih _ _ p
  | cancel next ih => exact ih _
  | sleep ms next ih =>
    simp only [attempt, requests]
    split
    next => rfl
    next => exact ih _

/-- What is asked for by one piece of work after another. -/
theorem requests_bind {β : Type} (work : Work σ η ε α) (f : α → Work σ η ε β) (p : Progress σ η) :
    (work.bind f).requests p = work.requests p ++
      match work.run p with
      | (.ended (.returned value), q) => (f value).requests q
      | _ => [] := by
  induction work generalizing p with
  | done ending => cases ending <;> rfl
  | look next ih => exact ih _ p
  | note notes next ih => exact ih _
  | freshId next ih => exact ih _ _
  | find id next ih => exact ih _ p
  | collect mapper t next ih => exact congrArg _ (ih _ _)
  | stage write next ih => exact congrArg _ (ih _)
  | append records next ih =>
    exact (congrArg _ (ih _ _)).trans (List.append_assoc _ _ _).symm
  | fetch limit next ih => exact ih _ _
  | markProcessed id next ih => exact (congrArg _ (ih _ _)).trans (List.append_assoc _ _ _).symm
  | markFailed id error next ih => exact (congrArg _ (ih _ _)).trans (List.append_assoc _ _ _).symm
  | afterCommit hook next ih => exact congrArg _ (ih _)
  | counts next ih => exact ih _ _ p
  | cancel next ih => exact ih _
  | sleep ms next ih =>
    simp only [bind, requests, run]
    cases p.token.breakOff? p.clock ms with
    | some due => rfl
    | none => exact ih _

section

variable {work : Work σ η ε α} {lift : UnitOfWorkError → ε} {db begun : Database} {token : CancelToken}
  {watched : Bool} {clock : Nat} {notes : σ} {value : α} {p : Progress σ η}

theorem Ends.unique {outcome other : Outcome ε α} {q : Progress σ η}
    (h : work.Ends db token watched clock notes outcome p) (h' : work.Ends db token watched clock notes other q) :
    outcome = other ∧ p = q := by
  obtain ⟨_, ⟨-, _, first, _, second, rfl⟩, ran⟩ := h
  obtain ⟨_, ⟨-, _, first', _, second', rfl⟩, ran'⟩ := h'
  cases first.symm.trans first'
  cases second.symm.trans second'
  exact Prod.mk.inj (ran.symm.trans ran')

/-- A transaction that nothing keeps from it commits. -/
theorem conclude_commits {rows : List NewRecord} {ids : IdSupply}
    (flushed : Collected.flush p.db.now p.scope.collected p.db.ids = .ok (rows, ids))
    (going : p.token.cancelled = false)
    (appends : rows ≠ [] → (p.db.outbox.strike .append).1 = false)
    (commits : (p.db.outbox.strike .commit).1 = false) (works : p.db.outbox.failCommits = false) :
    (conclude lift value p : Executed σ η ε α).ending = .returned value := by
  obtain ⟨outbox, appended, commits', works'⟩ : ∃ outbox : OutboxStore,
      { p.db with ids := ids }.appendAll p.scope.tx rows =
        (.ok (p.scope.tx.append rows), { p.db with ids := ids, outbox := outbox }) ∧
      (outbox.strike .commit).1 = false ∧ outbox.failCommits = false := by
    unfold Database.appendAll
    split
    next nothing =>
      have nil : rows = [] := List.isEmpty_iff.mp nothing
      exact ⟨p.db.outbox, by simp [nil, Transaction.append], commits, works⟩
    next some_left =>
      have passes := OutboxStore.strike_false (appends fun nil => some_left (by rw [nil]; rfl))
      refine ⟨{ p.db.outbox with faults := (p.db.outbox.faults.strike .append).2 }, ?_, ?_, works⟩
      · simp only [OutboxStore.tryAppend, passes]
      · exact (OutboxStore.strike_fst_of_ne (by decide)).trans commits
  have committed : ({ p.db with ids := ids, outbox := outbox }.commit (p.scope.tx.append rows)).1 =
      .ok p.scope.tx.staged := by
    simp [Database.commit, OutboxStore.tryCommit, OutboxStore.strike_false commits', OutboxStore.commit, works',
      Transaction.append]
  rcases ended : { p.db with ids := ids, outbox := outbox }.commit (p.scope.tx.append rows) with ⟨r, final⟩
  rw [ended] at committed
  obtain rfl : r = .ok p.scope.tx.staged := committed
  simp [conclude, flushed, appended, going, ended]

end

/-- A unit of work whose business returns and whose commit nothing keeps from it writes everything once and in
order. It returns the value of the business. Behind what its own calls of the outbox have written stands one
row for each event that its mapper did not pass over, in the order in which the events were collected, and each
is new. Its writes are carried out in the order in which they were staged, and then all hooks run in theirs,
however each of them ends. A to-do that was collected has nothing more to tell when it is collected again. -/
theorem execute_writes_once (work : Work σ η ε α) (lift : UnitOfWorkError → ε) (db : Database)
    (token : CancelToken) (watched : Bool) (clock : Nat) (notes : σ) (start p : Progress σ η) (value : α)
    (opens : ∃ begun, Opens db token begun ∧ start = ⟨begun, .empty, token, watched, clock, notes⟩)
    (returns : work.run start = (.ended (.returned value), p))
    (accepted : ∀ r ∈ work.requests start, r.Accepted) (going : p.token.cancelled = false)
    (appends : (work.requests start).flatMap Request.published ≠ [] → (p.db.outbox.strike .append).1 = false)
    (commits : (p.db.outbox.strike .commit).1 = false) (works : p.db.outbox.failCommits = false) :
    let asked := work.requests start
    let done := work.execute lift db token watched clock notes
    done.ending = .returned value ∧
      done.db.outbox.records =
        (asked.filterMap Request.call?).foldl RowCall.perform db.outbox.records ++
          (Publication.rows p.db.ids db.now (asked.flatMap Request.published)).map .ofNew ∧
      done.writes = asked.filterMap Request.write? ∧
      done.db.repository = (done.writes.foldl Database.applyWrite db).repository ∧
      done.hooks = asked.filterMap Request.hook? ∧
      (∀ (ω : Type) (perform : η → ω → HookEnd × ω) (w : ω),
        runHooks perform done.hooks w = done.hooks.foldl (fun w hook => (perform hook w).2) w) ∧
      ∀ (scope : Scope η) (mapper other : EventMapper) (t : TrackedTodo),
        (scope.collect mapper t).2.collect other (scope.collect mapper t).1 = scope.collect mapper t := by
  intro asked done
  obtain ⟨begun, opened, rfl⟩ := opens
  have ends : work.Ends db token watched clock notes (.ended (.returned value)) p := ⟨begun, opened, returns⟩
  have asks := work.run_asks ⟨begun, .empty, token, watched, clock, notes⟩
  rw [returns] at asks
  have gathered : p.scope.collected.flatMap Collected.published = asked.flatMap Request.published :=
    asks.published
  have flushed := Collected.flush_accepted (asks.accepted nofun accepted) p.db.now p.db.ids
  rw [gathered] at flushed
  have started : begun.now = db.now ∧ begun.outbox.records = db.outbox.records := by
    obtain ⟨-, _, passed, _, passed', rfl⟩ := opened
    exact ⟨rfl, (OutboxStore.of_strike passed').1.trans (OutboxStore.of_strike passed).1⟩
  have ending : done.ending = .returned value := by
    change (work.execute lift db token watched clock notes).ending = _
    rw [execute_of_ends ends]
    refine conclude_commits flushed going ?_ commits works
    intro some_rows
    apply appends
    intro nothing
    rw [nothing] at some_rows
    exact some_rows rfl
  obtain ⟨q, rows, again, flushed', committed⟩ := execute_returned ending
  obtain ⟨-, rfl⟩ := ends.unique again
  obtain ⟨rfl, -⟩ := Prod.mk.inj (Except.ok.inj (flushed.symm.trans flushed'))
  have follows := asks.follows [] (.empty _)
  rw [List.nil_append, ends.clean.records] at follows
  have staged : p.scope.tx.staged = asked.filterMap Request.write? := asks.staged
  have hooks : p.scope.hooks = asked.filterMap Request.hook? := asks.hooks
  have now : p.db.now = db.now := asks.now.trans started.1
  refine ⟨ending, ?_, committed.writes.trans staged, ?_, committed.hooks.trans hooks, ?_, ?_⟩
  · have written := committed.records.trans (follows.append _).written
    rw [List.foldl_append, now] at written
    exact written
  · rw [committed.writes]
    exact committed.repository
  · intro ω perform w
    exact runHooks_eq_foldl perform done.hooks w
  · intro scope mapper other t
    exact scope.collect_again mapper other t

/-- Passes over renamings. -/
def terse : EventMapper := fun e =>
  match e.change with
  | .renamed _ => .ok none
  | _ => .ok (some ⟨e.name, [], []⟩)

/-- A to-do that was created and renamed. -/
def milk : TrackedTodo :=
  let row : Todo := ⟨⟨⟨3⟩⟩, ⟨⟨4⟩⟩, "milk", false, waitingRow.createdAt, waitingRow.createdAt, none⟩
  ((TrackedTodo.restore row).record row (.created "mill") waitingRow.createdAt).record row (.renamed "milk")
    waitingRow.createdAt

/-- Collects a to-do, and again in nested work that completes it and is lost, and then writes and marks rows. -/
def shopping : Work Unit (String × HookEnd) String Nat :=
  .collect terse milk fun milk =>
    let lost : Work Unit (String × HookEnd) String Unit :=
      .collect terse (milk.complete waitingRow.createdAt) fun _ => .afterCommit ("lost", .panic) (fail "lost")
    lost.attempt.bind fun _ => .stage (.row (.put milk.todo)) <| .stage (.label "done") <|
      .markProcessed waitingRow.id fun _ => .append [{ waitingRow with id := ⟨5⟩ }] fun _ =>
        .afterCommit ("last", .ok) (give 2)

theorem execute_writes_once_shopping :
    let done := shopping.execute UnitOfWorkError.message halfTaken .never true 0 ()
    done.ending = .returned 2 ∧
      done.db.outbox.records.map (fun r => (r.eventType, r.isPending)) =
        [("todo.deleted", false), ("todo.deleted", true), ("todo.deleted", true), ("todo.created", true),
          ("todo.completed", true)] ∧
      done.writes.length = 2 ∧
      runHooks (fun hook log => (hook.2, log ++ [hook.1])) done.hooks [] = ["lost", "last"] := by
  intro done
  let start : Progress Unit (String × HookEnd) := ⟨halfTaken, .empty, .never, true, 0, ()⟩
  have total (e : TodoEvent) : ∃ mapped, terse e = .ok mapped := by
    unfold terse
    split <;> exact ⟨_, rfl⟩
  have asked : shopping.requests start =
      [.collect terse milk, .collect terse (TrackedTodo.complete ⟨milk.todo, .empty⟩ waitingRow.createdAt),
        .afterCommit ("lost", .panic), .stage (.row (.put milk.todo)), .stage (.label "done"),
        .call (.mark (.processed waitingRow.id halfTaken.now)),
        .call (.append [{ waitingRow with id := ⟨5⟩ }]), .afterCommit ("last", .ok)] := rfl
  have accepted : ∀ r ∈ shopping.requests start, r.Accepted := by
    rw [asked]
    simp [Request.Accepted, total]
  obtain ⟨ending, records, writes, -, hooks, ran, -⟩ :=
    execute_writes_once shopping UnitOfWorkError.message halfTaken .never true 0 () start (shopping.run start).2 2
      ⟨halfTaken, ⟨rfl, _, rfl, _, rfl, rfl⟩, rfl⟩ rfl accepted rfl (fun _ => rfl) rfl rfl
  refine ⟨ending, ?_, ?_, ?_⟩
  · rw [records]
    rfl
  · rw [writes]
    rfl
  · rw [ran, hooks]
    rfl

end Work

end Workboard
