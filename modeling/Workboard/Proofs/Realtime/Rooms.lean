import Workboard.Broker.Envelope
import Workboard.Realtime.History
import Workboard.Proofs.Json.Written

/-!
The room under which a message is handed on. The filter that reads it skips what it does not know, refuses a name that
repeats and does not look into other members; a reader of free-form values lets the last of several members count. On
every object the two agree: the filter finds a room only where a single member says it.
-/

namespace Workboard

open Json

namespace RoomFilter

/-- The room of an object is the text that its one member of that name holds. -/
theorem ofNode?_eq_some_iff {d : Nat} {nodes : List (Bytes × Node)} {written : List (String × Value)}
    (all : nodes.mapM (Value.ofMember? d) = some written) (room : String) :
    ofNode? (.object nodes) = some room ↔ membersNamed "room_id" written = [.string room] := by
  obtain ⟨found, values, known⟩ := Fields.known?_of_ofMember? all "room_id"
  rw [ofNode?, Fields.ofNode?, known]
  generalize membersNamed "room_id" written = ws at values
  cases values with
  | nil => simp [Fields.defaulted?, Fields.get?]
  | @cons v w _ _ read others =>
    cases others with
    | nil =>
      show (Node.optional? Node.text? v).join = some room ↔ _
      rw [Value.text?_of_ofNode? read, Value.text?_eq_some_iff, List.singleton_inj]
    | cons next others => simp

/-- A reader of the whole envelope finds the room that the filter finds. -/
theorem standard_of_envelope {raw : Bytes} {e : Envelope} {members : List (Bytes × Node)}
    (text : Node.ofBytes? raw = some (.object members)) (read : Envelope.ofBytes? raw = some e) :
    standard raw = e.roomId := by
  rw [Envelope.ofBytes?, text, Option.bind_some] at read
  obtain ⟨f, fields, read⟩ := Option.bind_eq_some_iff.mp read
  obtain ⟨event, -, read⟩ := Option.bind_eq_some_iff.mp read
  obtain ⟨type, -, read⟩ := Option.bind_eq_some_iff.mp read
  obtain ⟨aggregate, -, read⟩ := Option.bind_eq_some_iff.mp read
  obtain ⟨room, told, read⟩ := Option.bind_eq_some_iff.mp read
  obtain ⟨data, -, made⟩ := Option.bind_eq_some_iff.mp read
  cases made
  obtain ⟨found, known, rfl⟩ := Option.map_eq_some_iff.mp fields
  have alone : Fields.known? ["room_id"] members = some _ := Fields.known?_singleton (by decide) known
  rw [standard, text, Option.bind_some, ofNode?, Fields.ofNode?, alone, Option.map_some]
  show (Fields.defaulted? (.named (found.filter fun m => m.1 = "room_id")) 0 "room_id" Node.text?).join = room
  rw [Fields.defaulted?_filter found "room_id" Node.text? 0 3, told]
  rfl

/-- Whatever object a text is, the filter finds a room in it exactly if one member alone has that name and holds the
room as a text, and then every reader of the object finds that room. A message without such a member reaches nobody,
whether the room is missing, is null or something else, or is said twice. -/
theorem reads_sole_room {raw : Bytes} {ms : List (String × Value)} (object : Value.ofBytes? raw = some (.object ms)) :
    ∃ written, Value.written? raw = some written ∧ ms = sortMembers written ∧
      (∀ room, standard raw = some room ↔ membersNamed "room_id" written = [.string room]) ∧
      (∀ room, standard raw = some room → (Value.object ms).member? "room_id" = some (.string room)) ∧
      (∀ e, Envelope.ofBytes? raw = some e → standard raw = e.roomId) ∧
      ((∀ room, membersNamed "room_id" written ≠ [.string room]) →
        standard raw = none ∧ ∀ (h : Hub) (order : ServingOrder), h.dispatchBy order standard raw = (0, h)) := by
  obtain ⟨members, written, text, all, listed, sorted⟩ := Value.written?_of_ofBytes? object
  have sole (room : String) : standard raw = some room ↔ membersNamed "room_id" written = [.string room] := by
    rw [standard, text, Option.bind_some, ofNode?_eq_some_iff all]
  refine ⟨written, listed, sorted, sole, ?_, fun e => standard_of_envelope text, ?_⟩
  · intro room found
    have only := (sole room).mp found
    obtain ⟨m, named, held⟩ := List.map_eq_singleton_iff.mp only
    rw [Value.member?, sorted, find?_sortMembers, named]
    exact congrArg some held
  · intro other
    have nothing : standard raw = none := by
      rcases found : standard raw with _ | room
      · rfl
      · exact absurd ((sole room).mp found) (other room)
    refine ⟨nothing, ?_⟩
    intro h order
    rw [Hub.dispatchBy, nothing]

/-- A name may be written with escapes, and a member inside another one does not count. Where the room is said twice, a
reader of free-form values takes the last, and the filter none. -/
theorem reads_sole_room_escaped :
    let raw := Bytes.ofText "\x7b\"data\":\x7b\"room_id\":\"ale\"\x7d,\"room\\u005fid\":\"tea\"\x7d"
    let twice := Bytes.ofText "\x7b\"room_id\":\"ale\",\"room\\u005fid\":\"tea\"\x7d"
    (∃ ms, Value.ofBytes? raw = some (.object ms) ∧ standard raw = some "tea" ∧
      (Value.object ms).member? "room_id" = some (.string "tea")) ∧
    ∃ ms written, Value.ofBytes? twice = some (.object ms) ∧ Value.written? twice = some written ∧
      (∀ room, membersNamed "room_id" written ≠ [.string room]) ∧
      ∀ h : Hub, h.dispatchBy .listed standard twice = (0, h) := by
  intro raw twice
  have object (text : Bytes) (held : ((Value.ofBytes? text).bind (·.member? "room_id")).isSome = true) :
      ∃ ms, Value.ofBytes? text = some (.object ms) := by
    rcases read : Value.ofBytes? text with _ | v
    · rw [read] at held
      cases held
    · rw [read] at held
      obtain ⟨ms, rfl⟩ := Value.object_of_member? held
      exact ⟨ms, rfl⟩
  refine ⟨?_, ?_⟩
  · obtain ⟨ms, read⟩ := object raw (by decide +kernel)
    obtain ⟨written, -, -, -, seen, -⟩ := reads_sole_room read
    have found : standard raw = some "tea" := by decide +kernel
    exact ⟨ms, read, found, seen "tea" found⟩
  · obtain ⟨ms, read⟩ := object twice (by decide +kernel)
    obtain ⟨written, listed, -, -, -, -, nobody⟩ := reads_sole_room read
    have both : (Value.written? twice).map (fun ms => (membersNamed "room_id" ms).length) = some 2 := by decide +kernel
    have other : ∀ room, membersNamed "room_id" written ≠ [.string room] := by
      intro room sole
      rw [listed, Option.map_some, sole] at both
      cases both
    exact ⟨ms, written, read, listed, other, fun h => (nobody other).2 h .listed⟩

end RoomFilter

end Workboard
