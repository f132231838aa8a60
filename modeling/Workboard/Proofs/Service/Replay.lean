import Workboard.Proofs.Service.Stored
import Workboard.Proofs.Todo.Json

/-!
The outbox tells the whole story of the stored to-dos: replaying the events of its rows gives the row of each
to-do, at any moment of any run, as far as the texts of events tell their times.
-/

namespace Workboard

namespace Database

/-- The events in the rows that were written for a to-do, if all of them can be read. -/
def eventsOf? (db : Database) (id : TodoId) : Option (List TodoEvent) :=
  (db.outbox.records.filter fun r => r.aggregateId = id.uuid).mapM fun r =>
    TodoEvent.ofBytes? r.payload

/-- What the events of a to-do give, if they can be read and apply. -/
def replayed? (db : Database) (id : TodoId) : Option (Option Todo) :=
  (db.eventsOf? id).bind fun events => TodoEvent.replayAll? events none

/-- The rows that were written for a to-do tell events that give its row, or its absence. -/
def Replays (db : Database) (id : TodoId) : Prop :=
  ∃ events, db.eventsOf? id = some (events.map TodoEvent.asWritten) ∧
    TodoEvent.replayAll? events none = some (db.repository.find? id)

/-- The events that are read give the row as its text names it. -/
theorem Replays.replayed {db : Database} {id : TodoId} (h : db.Replays id) :
    db.replayed? id = some ((db.repository.find? id).map Todo.asWritten) := by
  obtain ⟨events, decoded, replayed⟩ := h
  rw [replayed?, decoded]
  exact TodoEvent.replayAll?_asWritten replayed

/-- The rows of a to-do tell events; all of them can be read. -/
def Told (id : TodoId) (rows : List OutboxRecord) (events : List TodoEvent) : Prop :=
  (rows.filter fun r => r.aggregateId = id.uuid).mapM (fun r => TodoEvent.ofBytes? r.payload) =
    some (events.map TodoEvent.asWritten)

theorem Told.append {id : TodoId} {rows more : List OutboxRecord} {events others : List TodoEvent}
    (h : Told id rows events) (h' : Told id more others) : Told id (rows ++ more) (events ++ others) := by
  rw [Told] at *
  rw [List.filter_append, List.mapM_append, h, h', List.map_append]
  rfl

theorem Replays.congr {before after : Database} {id : TodoId} (h : before.Replays id)
    (records : after.outbox.records = before.outbox.records)
    (row : after.repository.find? id = before.repository.find? id) : after.Replays id := by
  obtain ⟨events, decoded, replayed⟩ := h
  refine ⟨events, ?_, row ▸ replayed⟩
  rw [eventsOf?, records]
  exact decoded

/-- Rows are written whose events make the new row of the old one. -/
theorem Replays.told {before after : Database} {id : TodoId} (h : before.Replays id) {rows : List OutboxRecord}
    {events : List TodoEvent} (records : after.outbox.records = before.outbox.records ++ rows)
    (told : Told id rows events)
    (effect : TodoEvent.replayAll? events (before.repository.find? id) = some (after.repository.find? id)) :
    after.Replays id := by
  obtain ⟨past, decoded, replayed⟩ := h
  have all : Told id (before.outbox.records ++ rows) (past ++ events) := Told.append decoded told
  refine ⟨past ++ events, ?_, ?_⟩
  · rw [eventsOf?, records]
    exact all
  · rw [TodoEvent.replayAll?_append replayed]
    exact effect

/-- Between two moments nothing was written and no row has changed, or the one event was written that makes
the one row that has changed. -/
inductive Recorded (before after : Database) : Prop
  | nothing : after.outbox.records = before.outbox.records →
      (∀ id, after.repository.find? id = before.repository.find? id) → Recorded before after
  | event (e : TodoEvent) (row : OutboxRecord) :
      after.outbox.records = before.outbox.records ++ [row] → row.aggregateId = e.todoId.uuid →
      TodoEvent.ofBytes? row.payload = some e.asWritten →
      e.replay? (before.repository.find? e.todoId) = some (after.repository.find? e.todoId) →
      after.repository.find? e.todoId ≠ before.repository.find? e.todoId →
      (∀ id, id ≠ e.todoId → after.repository.find? id = before.repository.find? id) →
      Recorded before after

theorem Recorded.replays {before after : Database} (h : before.Recorded after) {id : TodoId}
    (replays : before.Replays id) : after.Replays id := by
  cases h with
  | nothing records same => exact replays.congr records (same id)
  | event e row records aggregate payload effect _ others =>
    by_cases hid : id = e.todoId
    · subst hid
      have own : Told e.todoId [row] [e] := by simp [Told, aggregate, payload]
      refine replays.told records own ?_
      simp [TodoEvent.replayAll?, effect]
    · have ne : row.aggregateId ≠ id.uuid := by
        intro he
        exact hid (congrArg TodoId.mk (he.symm.trans aggregate))
      have other : Told id [row] [] := by simp [Told, ne]
      refine replays.told records other ?_
      rw [others id hid]
      rfl

end Database

namespace TodoService

theorem mapped_standard {e : TodoEvent} {rows : List NewRecord} (h : Mapped .standard e rows) :
    ∃ row, rows = [row] ∧ row.aggregateId = e.todoId.uuid ∧ TodoEvent.ofBytes? row.payload = some e.asWritten := by
  obtain ⟨m, hm, same⟩ := h
  obtain rfl : some (EventMapper.mapped e) = m := Except.ok.inj hm
  rcases rows with _ | ⟨row, _ | ⟨_, _⟩⟩
  · simp at same
  · have cell := List.cons.inj same
    obtain ⟨aggregate, payload⟩ := Prod.mk.inj cell.1
    exact ⟨row, rfl, aggregate, by rw [payload]; exact e.ofBytes?_toBytes⟩
  · simp at same

theorem Change.recorded {db after : Database} {hooks : List ChangedTodo}
    (h : Change .standard db after hooks) : db.Recorded after := by
  cases h with
  | nothing records repository => exact .nothing records fun id => by rw [repository]
  | same t found records repository =>
    refine .nothing records fun id => ?_
    rw [repository]
    by_cases hid : id = t.id
    · rw [hid, Repository.find?_insert_self, found]
    · exact db.repository.find?_insert_of_ne hid
  | event e rows new records mapped replays repository _ =>
    obtain ⟨row, rfl, aggregate, payload⟩ := mapped_standard mapped
    obtain ⟨changed, -, named⟩ := TodoEvent.replay?_some replays
    cases new with
    | none =>
      have gone : after.repository.find? e.todoId = none := by
        rw [repository, Repository.find?_erase_self]
      refine .event e (.ofNew row) records aggregate payload (gone ▸ replays) (gone ▸ changed) ?_
      intro id hid
      rw [repository]
      exact db.repository.find?_erase_of_ne hid
    | some t =>
      have same_id := (named t rfl).1
      have stored : after.repository.find? e.todoId = some t := by
        rw [repository, ← same_id, Repository.find?_insert_self]
      refine .event e (.ofNew row) records aggregate payload (stored ▸ replays) (stored ▸ changed) ?_
      intro id hid
      rw [repository]
      exact db.repository.find?_insert_of_ne (same_id ▸ hid)

theorem Proper.recorded {s : TodoService} (proper : Proper s.db) (standard : s.mapper = .standard)
    {e : ServiceEvent} (distinct : (s.after e).db.ids.Distinct) : s.db.Recorded (s.after e).db := by
  cases h : e.task? s.mapper with
  | none =>
    obtain ⟨records, rows, -⟩ := (after_same h).1
    exact .nothing records (Repository.find?_congr rows)
  | some task =>
    have change := proper.change h distinct
    rw [standard] at change
    exact change.recorded

theorem run_replays {s : TodoService} (standard : s.mapper = .standard) (proper : Proper s.db)
    (replays : ∀ id, s.db.Replays id) (history : List ServiceEvent)
    (fresh : (s.run history).db.ids.Distinct) :
    (∀ id, (s.run history).db.Replays id) ∧
      ∀ past e future, history = past ++ e :: future →
        (s.run past).db.Recorded ((s.run past).after e).db := by
  induction history generalizing s with
  | nil => exact ⟨replays, by simp⟩
  | cons e history ih =>
    have distinct : (s.after e).db.ids.Distinct := ((s.after e).run_extends history).distinct fresh
    have recorded := proper.recorded standard distinct
    obtain ⟨later, steps⟩ := ih ((s.after_mapper e).trans standard) (proper.after distinct)
      (fun id => recorded.replays (replays id)) fresh
    refine ⟨later, ?_⟩
    intro past f future split
    rcases past with _ | ⟨g, past⟩
    · obtain ⟨rfl, -⟩ := List.cons.inj split
      exact recorded
    · obtain ⟨rfl, rest⟩ := List.cons.inj split
      exact steps past f future rest

theorem replays_of_empty {db : Database} (no_events : db.outbox.records = []) (no_rows : db.repository.rows = [])
    (id : TodoId) : db.Replays id := by
  refine ⟨[], ?_, ?_⟩
  · rw [Database.eventsOf?, no_events]
    rfl
  · rw [Repository.find?, no_rows]
    rfl

/-- At every moment of a run that starts with an empty store, with fresh identifiers: for each to-do, the
events of its rows in the outbox can be read, and replaying them in the order in which they were written gives
its stored row as its text names it, or its absence. That is exactly the row if its times have texts of their own. Each
thing that happens either writes nothing and changes no row, or writes the one event that makes the one row that it
changes. -/
theorem outbox_replays (s : TodoService) (standard : s.mapper = .standard)
    (no_events : s.db.outbox.records = []) (no_rows : s.db.repository.rows = [])
    (history : List ServiceEvent) (fresh : (s.run history).db.ids.Distinct) :
    (∀ id, (s.run history).db.Replays id ∧
      (s.run history).db.replayed? id = some (((s.run history).db.repository.find? id).map Todo.asWritten) ∧
      ((∀ t ∈ (s.run history).db.repository.find? id, t.Expressible) →
        (s.run history).db.replayed? id = some ((s.run history).db.repository.find? id))) ∧
      ∀ past e future, history = past ++ e :: future →
        (s.run past).db.Recorded ((s.run past).after e).db := by
  obtain ⟨replays, steps⟩ :=
    run_replays standard (proper_of_no_rows no_rows) (replays_of_empty no_events no_rows) history fresh
  refine ⟨fun id => ⟨replays id, (replays id).replayed, fun own => ?_⟩, steps⟩
  rw [(replays id).replayed]
  cases found : (s.run history).db.repository.find? id with
  | none => rfl
  | some t => rw [Option.map_some, Todo.asWritten_eq_self_iff.mpr (own t found)]

def shop : WorkspaceId := ⟨⟨9⟩⟩

def firstTodo : TodoId := ⟨IdSupply.standardNth 0⟩

def unused : TodoService :=
  let now : Instant := ⟨⟨2025, 3, 1, rfl⟩, 8, 30, 0, 0, rfl⟩
  ⟨⟨.empty, .empty, .empty, now⟩, none, ⟨now, 1000⟩, .standard, [], 0⟩

/-- A to-do is created and completed; its reopening is not committed, and then it gets another title. -/
def errands : List ServiceEvent :=
  [.create shop "milk", .complete firstTodo, .failCommits true, .reopen firstTodo, .failCommits false,
    .rename firstTodo " tea "]

theorem outbox_replays_errands :
    (unused.run errands).db.Replays firstTodo ∧
      (unused.run errands).db.outbox.records.map (·.eventType) =
        ["todo.created", "todo.completed", "todo.renamed"] ∧
      ((unused.run errands).db.repository.find? firstTodo).map (fun t => (t.title, t.completed)) =
        some ("tea", true) := by
  have events : (unused.run errands).db.outbox.records.map (·.eventType) =
      ["todo.created", "todo.completed", "todo.renamed"] := by decide +kernel
  have row : ((unused.run errands).db.repository.find? firstTodo).map
      (fun t => (t.title, t.completed)) = some ("tea", true) := by decide +kernel
  have fresh : (unused.run errands).db.ids.Distinct := distinct_run rfl errands (by decide +kernel)
  exact ⟨((outbox_replays unused rfl rfl rfl errands fresh).1 firstTodo).1, events, row⟩

/-- A to-do is created in a leap second that ends no minute. -/
def strayCreation : List ServiceEvent :=
  [.clocks ⟨.strayLeap, 1000⟩ .strayLeap, .create shop "milk"]

/-- The event of a creation in such a leap second gives another row than the one that was stored. -/
theorem stray_creation_diverges :
    (unused.run strayCreation).db.ids.Distinct ∧
      (unused.run strayCreation).db.repository.find? firstTodo =
        some ⟨firstTodo, shop, "milk", false, .strayLeap, .strayLeap, none⟩ ∧
      (unused.run strayCreation).db.replayed? firstTodo ≠
        some ((unused.run strayCreation).db.repository.find? firstTodo) := by
  have row : (unused.run strayCreation).db.repository.find? firstTodo =
      some ⟨firstTodo, shop, "milk", false, .strayLeap, .strayLeap, none⟩ := by decide +kernel
  have fresh : (unused.run strayCreation).db.ids.Distinct := distinct_run rfl strayCreation (by decide +kernel)
  have replays := (run_replays (s := unused) rfl (proper_of_no_rows rfl) (replays_of_empty rfl rfl) strayCreation
    fresh).1 firstTodo
  refine ⟨fresh, row, ?_⟩
  rw [replays.replayed, row]
  exact fun same => absurd (Todo.asWritten_eq_self_iff.mp (Option.some.inj (Option.some.inj same))).created (by decide)

end TodoService

end Workboard
