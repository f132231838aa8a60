import Workboard.Work.Scope
import Workboard.Proofs.Broker.Envelope
import Workboard.Broker.Message
import Workboard.Proofs.Json.Members
import Workboard.Proofs.Todo.Json

/-!
What a message takes from its row: the headers of the row, and one more that names the row.
-/

namespace Workboard

namespace Headers

theorem get?_insert (h : Headers) (name value : String) : (h.insert name value).get? name = some value := by
  rw [get?, insert, Json.find?_putMember]
  rfl

theorem get?_insert_of_ne {name other : String} (apart : other ≠ name) (h : Headers) (value : String) :
    (h.insert name value).get? other = h.get? other := by
  rw [get?, get?, insert, Json.find?_putMember_of_ne apart]

end Headers

namespace BrokerMessage

theorem header_ofRecord (r : OutboxRecord) :
    (ofRecord r).headers.get? EventMapper.eventIdHeader = some (ofRecord r).eventId.toText :=
  Headers.get?_insert _ _ _

/-- A message is of what was written of a row at first. -/
theorem ofRecord_congr {q r : OutboxRecord} (same : q.toNewRecord = r.toNewRecord) : ofRecord q = ofRecord r := by
  simp only [ofRecord, same]

/-- The room of an event's message is the event's workspace. -/
theorem roomId?_ofRecord {e : TodoEvent} {r : OutboxRecord} (headers : r.headers = (EventMapper.mapped e).headers) :
    (ofRecord r).roomId? = some e.workspaceId.toText := by
  rw [roomId?, ofRecord, Headers.get?_insert_of_ne (by decide), headers, EventMapper.mapped, Headers.ofList,
    List.foldl_cons, List.foldl_cons, List.foldl_nil, Headers.get?_insert_of_ne (by decide),
    Headers.get?_insert]

end BrokerMessage

end Workboard

/-!
An event reaches the room of its workspace. Whatever its title and its time are, its message can be written,
the room is read out of the bytes, and a reader of the bytes finds the event in them.
-/

namespace Workboard

open Json

namespace TodoEvent

def members (e : TodoEvent) : List (String × String) := ("type", e.change.tag) :: e.fields

/-- A free-form reader finds the members of a text sorted by their names. -/
theorem ofNode?_asTexts (depth : Nat) (ms : List (String × String)) :
    Value.ofNode? (depth + 1) (Value.object (asTexts ms)).toNode = some (.object (asTexts (sortMembers ms))) := by
  have read := ofNode?_texts depth ms
  rwa [sortMembers_map] at read

theorem ofBytes?_payload (e : TodoEvent) :
    Value.ofBytes? e.toBytes = some (.object (asTexts (sortMembers e.members))) := by
  rw [Value.ofBytes?, toBytes, toValue_eq, Value.ofBytes?_print (legible_asTexts _), Option.bind_some]
  exact ofNode?_asTexts 126 e.members

/-- The event is still found after its members have been sorted twice. -/
theorem sorted_members (e : TodoEvent) : (sortMembers (sortMembers e.members)).Perm e.members := by
  have once : (sortMembers e.members).Perm e.members := sortMembers_perm e.names_fields
  exact (sortMembers_perm ((once.map _).nodup_iff.mpr e.names_fields)).trans once

section envelope

variable (e : TodoEvent) (ids : IdSupply) (kind : String) (now : Instant) (id : Uuid)

/-- The row that is written for an event. -/
def row : NewRecord := ⟨ids.fresh.1, e.name, kind, e.todoId.uuid, e.toBytes, (EventMapper.mapped e).headers, now⟩

/-- The envelope in which an event is sent, and the one that is read. A free-form reader sorts the members each time. -/
def sent : Envelope := ⟨id, e.name, e.todoId.uuid, some e.workspaceId.toText, .object (asTexts (sortMembers e.members))⟩

def received : Envelope :=
  { e.sent id with data := .object (asTexts (sortMembers (sortMembers e.members))) }

theorem records_standard :
    Collected.records kind e.todoId.uuid .standard now [e] ids = .ok ([e.row ids kind now], ids.fresh.2) := rfl

theorem envelope_ofRecord (retries : Nat) (lastError : Option String) (processedAt : Option Instant) :
    (BrokerMessage.ofRecord ⟨e.row ids kind now, retries, lastError, processedAt⟩).envelope =
      .ok (e.sent ids.fresh.1).toBytes := by
  let m := BrokerMessage.ofRecord ⟨e.row ids kind now, retries, lastError, processedAt⟩
  have room : m.roomId? = some e.workspaceId.toText := BrokerMessage.roomId?_ofRecord rfl
  have some_payload : m.payload.isEmpty = false := by
    show e.toBytes.isEmpty = false
    rw [toBytes, toValue_eq]
    rfl
  have data : Value.ofBytes? m.payload = some (e.sent ids.fresh.1).data := e.ofBytes?_payload
  rw [BrokerMessage.envelope, Envelope.ofMessage?, some_payload, data, room]
  rfl

theorem legible_sent : (e.sent id).data.Legible := legible_asTexts _

theorem ofBytes?_sent : Envelope.ofBytes? (e.sent id).toBytes = some (e.received id) :=
  Envelope.ofBytes?_toBytes (e.legible_sent id) (ofNode?_asTexts 125 (sortMembers e.members))

theorem ofNode?_received : ofNode? (e.received id).data.toNode = some e.asWritten :=
  e.ofNode?_of_perm e.sorted_members

end envelope

/-- An event reaches the room of its workspace. Its row can always be written, and so can its message; the
filter reads the workspace out of the bytes and no other, and whoever reads the bytes finds the row's
identifier, the name of the event, the to-do, the workspace, and in the data the event as its text names it, which is the
event itself exactly if its time has a text of its own. -/
theorem routes_to_workspace (e : TodoEvent) (ids : IdSupply) (kind : String) (now : Instant) (retries : Nat)
    (lastError : Option String) (processedAt : Option Instant) :
    ∃ row, Collected.records kind e.todoId.uuid .standard now [e] ids = .ok ([row], ids.fresh.2) ∧
      row.id = ids.fresh.1 ∧
      ∃ bytes, (BrokerMessage.ofRecord ⟨row, retries, lastError, processedAt⟩).envelope = .ok bytes ∧
        RoomFilter.standard bytes = some e.workspaceId.toText ∧
        (∀ w : WorkspaceId, RoomFilter.standard bytes = some w.toText → w = e.workspaceId) ∧
        ∃ read, Envelope.ofBytes? bytes = some read ∧ read.eventId = row.id ∧ read.eventType = e.name ∧
          read.aggregateId = e.todoId.uuid ∧ read.roomId = some e.workspaceId.toText ∧
          ofNode? read.data.toNode = some e.asWritten ∧ ofBytes? read.data.print = some e.asWritten ∧
          (e.asWritten = e ↔ e.timestamp.Expressible) := by
  have filtered : RoomFilter.standard (e.sent ids.fresh.1).toBytes = some e.workspaceId.toText :=
    RoomFilter.standard_toBytes (e.legible_sent ids.fresh.1)
  refine ⟨e.row ids kind now, e.records_standard ids kind now, rfl, (e.sent ids.fresh.1).toBytes,
    e.envelope_ofRecord ids kind now retries lastError processedAt, filtered, ?_, e.received ids.fresh.1,
    e.ofBytes?_sent ids.fresh.1, rfl, rfl, rfl, rfl, e.ofNode?_received ids.fresh.1, ?_, asWritten_eq_self_iff⟩
  · intro w other
    have text := Option.some.inj (filtered.symm.trans other)
    exact congrArg WorkspaceId.mk (Uuid.toText_injective text.symm)
  · have legible : (e.received ids.fresh.1).data.Legible := legible_asTexts _
    rw [ofBytes?, Value.ofBytes?_print legible, Option.bind_some, e.ofNode?_received]

/-- Who reads of a completion in a leap second behind the fourth second of a minute finds another event. -/
theorem stray_event_misread :
    let e : TodoEvent := ⟨⟨⟨1⟩⟩, ⟨⟨2⟩⟩, .completed, .strayLeap⟩
    ∃ row bytes read,
      Collected.records TrackedTodo.kind e.todoId.uuid .standard .strayLeap [e] .empty =
        .ok ([row], IdSupply.empty.fresh.2) ∧
      (BrokerMessage.ofRecord ⟨row, 0, none, none⟩).envelope = .ok bytes ∧
      Envelope.ofBytes? bytes = some read ∧
      (ofNode? read.data.toNode).map (·.timestamp) = some ⟨⟨2015, 6, 30, rfl⟩, 23, 56, 5, 333000000, rfl⟩ ∧
      ofNode? read.data.toNode ≠ some e := by
  intro e
  refine ⟨_, _, _, e.records_standard .empty TrackedTodo.kind .strayLeap, e.envelope_ofRecord .empty _ _ 0 none none,
    e.ofBytes?_sent _, ?_, ?_⟩
  · rw [e.ofNode?_received, Option.map_some, asWritten, Instant.asWritten_strayLeap]
  · rw [e.ofNode?_received]
    exact fun same => absurd (asWritten_eq_self_iff.mp (Option.some.inj same)) (by decide)

end TodoEvent

end Workboard
