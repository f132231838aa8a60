import Workboard.Proofs.Service.Remembered
import Workboard.Proofs.Work.Counting

/-!
Nothing waits for the cache. Whichever calls of its store fail, changes do what they would do with no cache at all,
and reads answer with what was stored at some moment.
-/

namespace Workboard

open CachedTodos

namespace TodoService

variable {s t u : TodoService}

/-- Services that differ in their caches, fills and counts of queries at most. -/
structure Akin (s t : TodoService) : Prop where
  db : t.db.withReads 0 = s.db.withReads 0
  clock : t.clock = s.clock
  mapper : t.mapper = s.mapper

theorem Akin.refl (s : TodoService) : s.Akin s := ⟨rfl, rfl, rfl⟩

theorem Akin.symm (h : s.Akin t) : t.Akin s := ⟨h.db.symm, h.clock.symm, h.mapper.symm⟩

theorem Akin.trans (h : s.Akin t) (h' : t.Akin u) : s.Akin u :=
  ⟨h'.db.trans h.db, h'.clock.trans h.clock, h'.mapper.trans h.mapper⟩

theorem akin_uncached (s : TodoService) : s.Akin s.uncached := ⟨rfl, rfl, rfl⟩

theorem Akin.executed {α : Type} (h : s.Akin t) (task : Task α) :
    (executed task t.db t.clock).withReads 0 = (executed task s.db s.clock).withReads 0 := by
  have count (db : Database) (clock : SteppingClock) :
      TodoService.executed task (db.withReads 0) clock = (TodoService.executed task db clock).withReads 0 :=
    Work.execute_withReads task .unitOfWork db 0 .never false 0 clock
  rw [← count, ← count, h.db, h.clock]

theorem Akin.execute {α : Type} (h : s.Akin t) (task : Task α) :
    (t.execute task).1 = (s.execute task).1 ∧ (s.execute task).2.Akin (t.execute task).2 := by
  have same := h.executed task
  have ending := congrArg Executed.ending same
  have db := congrArg Executed.db same
  have notes := congrArg Executed.notes same
  constructor
  · rw [execute_fst, execute_fst]
    exact ending ▸ rfl
  · rw [execute_snd, execute_snd]
    exact ⟨db, notes, h.mapper⟩

/-- A read counts queries at most. -/
theorem akin_read {α : Type} (s : TodoService) (reading : TodoCache → Reading CachedTodos) (wrap : α → CachedTodos)
    (unwrap? : CachedTodos → Option α) {fetch : Repository → Except ServiceError α × Repository}
    (counts : ∀ r, (fetch r).2.withReads 0 = r.withReads 0) : s.Akin (s.read reading wrap unwrap? fetch).2 := by
  have only {r : Repository} (same : r.withReads 0 = s.db.repository.withReads 0) :
      { s.db with repository := r }.withReads 0 = s.db.withReads 0 := by
    rw [Database.withReads, Database.withReads, same]
  rw [read_snd]
  rcases s.cache with _ | c
  · exact ⟨only (counts s.db.repository), rfl, rfl⟩
  · have kept : ∀ r : Repository, r.withReads 0 = s.db.repository.withReads 0 →
        (wrapped wrap fetch r).2.withReads 0 = s.db.repository.withReads 0 := fun r same => (counts r).trans same
    exact ⟨only ((reading c).runFrom_source s.wall kept 8 .lookup c.aside rfl), rfl, rfl⟩

theorem akin_get (s : TodoService) (id : TodoId) : s.Akin (s.get id).2 := by
  refine s.akin_read _ _ _ fun r => ?_
  unfold fetchOne Repository.queryGet
  cases r.find? id <;> rfl

theorem akin_list (s : TodoService) (workspace : WorkspaceId) : s.Akin (s.list workspace).2 :=
  s.akin_read _ _ _ fun _ => rfl

theorem akin_revision (s : TodoService) (workspace : WorkspaceId) : s.Akin (s.revision workspace).2 := by
  unfold revision
  split <;> exact ⟨rfl, rfl, rfl⟩

theorem akin_doFill (s : TodoService) (place pause : Nat) : s.Akin (s.doFill place pause) := by
  unfold doFill
  split <;> exact ⟨rfl, rfl, rfl⟩

theorem Akin.onOutbox (h : s.Akin t) (f : OutboxStore → OutboxStore) : (s.onOutbox f).Akin (t.onOutbox f) :=
  ⟨congrArg (fun db : Database => { db with outbox := f db.outbox }) h.db, h.clock, h.mapper⟩

theorem Akin.after (h : s.Akin t) (e : ServiceEvent) : (s.after e).Akin (t.after e) := by
  cases ht : e.task? s.mapper with
  | some task =>
    rw [after_of_task ht, after_of_task (h.mapper ▸ ht)]
    exact (h.execute task).2
  | none =>
    cases e with
    | get id => exact (s.akin_get id).symm.trans (h.trans (t.akin_get id))
    | list workspace => exact (s.akin_list workspace).symm.trans (h.trans (t.akin_list workspace))
    | fill place pause => exact (s.akin_doFill place pause).symm.trans (h.trans (t.akin_doFill place pause))
    | failCommits on => exact h.onOutbox fun o => { o with failCommits := on }
    | fault call times => exact h.onOutbox fun o => { o with faults := o.faults.arm call times }
    | clocks clock now => exact ⟨congrArg (fun db : Database => { db with now := now }) h.db, rfl, h.mapper⟩
    | wait ms => exact ⟨h.db, h.clock, h.mapper⟩
    | _ => cases ht

theorem Akin.afterTurn (h : s.Akin t) (turn : ServiceTurn) : (s.afterTurn turn).Akin (t.afterTurn turn) := by
  cases turn with
  | event e => exact h.after e
  | revision workspace => exact (s.akin_revision workspace).symm.trans (h.trans (t.akin_revision workspace))
  | cacheFaults failing faults => exact ⟨h.db, h.clock, h.mapper⟩

theorem Akin.runTurns (h : s.Akin t) (history : List ServiceTurn) : (s.runTurns history).Akin (t.runTurns history) := by
  induction history generalizing s t with
  | nil => exact h
  | cons turn history ih => exact ih (h.afterTurn turn)

theorem Akin.reply? (h : s.Akin t) (e : ServiceEvent) : t.reply? e = s.reply? e := by
  cases e with
  | create workspace title =>
    simp only [TodoService.reply?, create, h.mapper, (h.execute (Task.create s.mapper workspace title)).1]
  | rename id title => simp only [TodoService.reply?, rename, h.mapper, (h.execute (Task.rename s.mapper id title)).1]
  | complete id => simp only [TodoService.reply?, complete, h.mapper, (h.execute (Task.complete s.mapper id)).1]
  | reopen id => simp only [TodoService.reply?, reopen, h.mapper, (h.execute (Task.reopen s.mapper id)).1]
  | delete id => simp only [TodoService.reply?, delete, h.mapper, (h.execute (Task.delete s.mapper id)).1]
  | _ => rfl

theorem Akin.stored (h : s.Akin t) :
    t.db.outbox = s.db.outbox ∧ t.db.repository.rows = s.db.repository.rows ∧ t.db.ids = s.db.ids := by
  have outbox := congrArg Database.outbox h.db
  have rows := congrArg (fun db : Database => db.repository.rows) h.db
  have ids := congrArg Database.ids h.db
  exact ⟨outbox, rows, ids⟩

theorem get_answered {history : List ServiceTurn} (h : (s.runTurns history).Remembers (s.Answered history))
    (id : TodoId) :
    (s.runTurns history).db.repository.find? id = none ∧
        ((s.runTurns history).get id).1 = .error (Task.missing id) ∨
      ∃ past t, past <+: history ∧ (s.runTurns past).db.repository.find? id = some t ∧
        (((s.runTurns history).get id).1 = .ok t ∨ ((s.runTurns history).get id).1 = .ok t.asWritten) := by
  rw [get_eq_read]
  rcases h.read_answer (asks_one id) with fetched | ⟨v, u, ⟨past, workspace, early, known⟩, told, answered⟩
  · rw [fetched]
    unfold fetchOne Repository.queryGet
    rcases found : (s.runTurns history).db.repository.find? id with _ | t
    · exact .inl ⟨rfl, rfl⟩
    · exact .inr ⟨history, t, List.prefix_rfl, found, .inl rfl⟩
  · obtain ⟨t, found, same⟩ := Option.map_eq_some_iff.mp known
    cases same
    refine .inr ⟨past, t, early, found, ?_⟩
    rcases told with rfl | rfl
    · exact .inl answered
    · exact .inr answered

theorem list_answered {history : List ServiceTurn} (h : (s.runTurns history).Remembers (s.Answered history))
    (workspace : WorkspaceId) :
    ∃ past ts, past <+: history ∧ (s.runTurns past).db.repository.inWorkspace workspace = ts ∧
      (((s.runTurns history).list workspace).1 = .ok ts ∨
        ((s.runTurns history).list workspace).1 = .ok (ts.map Todo.asWritten)) := by
  rw [list_eq_read]
  rcases h.read_answer (asks_many workspace) with fetched | ⟨v, u, ⟨past, _, early, known⟩, told, answered⟩
  · exact ⟨history, _, List.prefix_rfl, rfl, .inl fetched⟩
  · cases known
    refine ⟨past, _, early, rfl, ?_⟩
    rcases told with rfl | rfl
    · exact .inl answered
    · exact .inr answered

/-- At any moment of a run in which any calls of the cache's store fail, changes answer what they would answer had
there been no cache, and the same is stored. A read finds a state that was stored at that moment or before, or what its
text names, which is the same where all its times have texts of their own; or nothing if there is nothing. -/
theorem never_gated_on_cache (s : TodoService) (root : String) (tagTtl entityTtl queryTtl : Nat)
    (form : BinaryForm Todo) (cached : s.cache = some ⟨.empty root tagTtl, entityTtl, queryTtl, form⟩)
    (no_fills : s.fills = []) (whole : ∀ t, form.whole? (form.write t) = some t.asWritten)
    (history : List ServiceTurn) :
    let now := s.runTurns history
    let bare := s.uncached.runTurns history
    ((∀ e, now.reply? e = bare.reply? e) ∧ now.db.repository.rows = bare.db.repository.rows ∧
      now.db.outbox = bare.db.outbox ∧ now.db.ids = bare.db.ids ∧ now.clock = bare.clock) ∧
    (∀ id, now.db.repository.find? id = none ∧ (now.get id).1 = .error (Task.missing id) ∨
      ∃ past t, past <+: history ∧ (s.runTurns past).db.repository.find? id = some t ∧
        ((now.get id).1 = .ok t ∨ (now.get id).1 = .ok t.asWritten) ∧ (t.Expressible → (now.get id).1 = .ok t)) ∧
    ∀ workspace, ∃ past ts, past <+: history ∧ (s.runTurns past).db.repository.inWorkspace workspace = ts ∧
      ((now.list workspace).1 = .ok ts ∨ (now.list workspace).1 = .ok (ts.map Todo.asWritten)) ∧
      ((∀ t ∈ ts, t.Expressible) → (now.list workspace).1 = .ok ts) := by
  dsimp only
  have akin := (s.akin_uncached.runTurns history).symm
  obtain ⟨outbox, rows, ids⟩ := akin.stored
  have start : s.Remembers (s.Answered []) := by
    refine ⟨fun q v workspace known => ⟨[], workspace, List.prefix_rfl, known⟩, ?_⟩
    intro c held
    obtain rfl := Option.some.inj (cached.symm.trans held)
    exact ⟨whole, rfl, by rintro key v ⟨⟩, by simp [no_fills]⟩
  have remembers := s.run_remembers history start
  refine ⟨⟨akin.reply?, rows, outbox, ids, akin.clock⟩, fun id => ?_, fun workspace => ?_⟩
  · refine (get_answered remembers id).imp_right fun ⟨past, t, early, found, answered⟩ => ?_
    exact ⟨past, t, early, found, answered, fun own => answered.elim (·) (Todo.asWritten_eq_self_iff.mpr own ▸ ·)⟩
  · obtain ⟨past, ts, early, stored, answered⟩ := list_answered remembers workspace
    exact ⟨past, ts, early, stored, answered, fun own => answered.elim (·) (Todo.map_asWritten_of_expressible own ▸ ·)⟩

/-- A to-do is cached and then renamed while nothing can be deleted from the cache. -/
def outage : List ServiceTurn :=
  [.event (.create shop "milk"), .event (.get firstTodo), .event (.fill 0 0),
    .cacheFaults false ⟨[(.delete, [true, true]), (.incr, [false, true])]⟩, .event (.rename firstTodo "tea"),
    .cacheFaults true .none, .event (.list shop), .cacheFaults false .none]

theorem never_gated_on_cache_outage :
    (cachedShop.runTurns outage).reply? (.complete firstTodo) =
        (cachedShop.uncached.runTurns outage).reply? (.complete firstTodo) ∧
      (∃ past t, past <+: outage ∧ (cachedShop.runTurns past).db.repository.find? firstTodo = some t ∧
        (((cachedShop.runTurns outage).get firstTodo).1 = .ok t ∨
          ((cachedShop.runTurns outage).get firstTodo).1 = .ok t.asWritten)) ∧
      ((cachedShop.runTurns outage).get firstTodo).1.toOption.map (·.title) = some "milk" ∧
      ((cachedShop.uncached.runTurns outage).get firstTodo).1.toOption.map (·.title) = some "tea" := by
  have stale : ((cachedShop.runTurns outage).get firstTodo).1.toOption.map (·.title) = some "milk" ∧
      ((cachedShop.uncached.runTurns outage).get firstTodo).1.toOption.map (·.title) = some "tea" := by
    decide +kernel
  obtain ⟨⟨replies, -⟩, one, -⟩ :=
    never_gated_on_cache cachedShop "app" 60000 60000 30000 .todo rfl rfl BinaryForm.readsBack_todo.whole outage
  rcases one firstTodo with ⟨-, nothing⟩ | ⟨past, t, early, found, answered, -⟩
  · rw [nothing] at stale
    exact absurd stale.1 (by simp [Except.toOption])
  · exact ⟨replies _, ⟨past, t, early, found, answered⟩, stale⟩

/-- It is not so that a list through the cache was stored at some moment: from the cache comes what its text names, which
for a leap second that ends no minute is another time. -/
theorem stray_list_never_stored :
    ¬ ∀ (s : TodoService) (root : String) (tagTtl entityTtl queryTtl : Nat) (history : List ServiceTurn),
      s.cache = some ⟨.empty root tagTtl, entityTtl, queryTtl, .todo⟩ → s.fills = [] →
      ∀ workspace ts, ((s.runTurns history).list workspace).1 = .ok ts →
        ∃ past, past <+: history ∧ (s.runTurns past).db.repository.inWorkspace workspace = ts := by
  intro claim
  let turns := strayVisits.map ServiceTurn.event
  have read : ((cachedShop.runTurns turns).list shop).1.toOption.map (List.map (·.createdAt)) =
      some [Instant.strayLeap.asWritten] := by decide +kernel
  have never : ∀ k < turns.length + 1, ((cachedShop.runTurns (turns.take k)).db.repository.inWorkspace shop).map
      (·.createdAt) ≠ [Instant.strayLeap.asWritten] := by decide +kernel
  rcases listed : ((cachedShop.runTurns turns).list shop).1 with e | ts <;> rw [listed] at read
  · cases read
  · obtain ⟨past, early, stored⟩ := claim cachedShop "app" 60000 60000 30000 turns rfl rfl shop ts listed
    have other := never past.length (Nat.lt_succ_of_le early.length_le)
    rw [← List.prefix_iff_eq_take.mp early, stored] at other
    exact other (Option.some.inj read)

end TodoService

end Workboard
