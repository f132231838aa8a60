import Workboard.Broker.Envelope
import Workboard.Realtime.Hub
import Workboard.Proofs.Json.Depth

/-!
Envelopes are read from their bytes. The filter finds the room whatever the data are; a reader of the whole
envelope gets the data only if they leave it a level of nesting, since they stand one level below.
-/

namespace Workboard

open Json

namespace Envelope

variable {e : Envelope}

theorem legible_toValue (legible : e.data.Legible) : e.toValue.Legible := by
  obtain ⟨event, type, aggregate, room, data⟩ := e
  cases room with
  | none => exact ⟨trivial, trivial, trivial, legible, trivial⟩
  | some room => exact ⟨trivial, trivial, trivial, trivial, legible, trivial⟩

/-- All but the data are read as they were written; the data are read one level below. -/
theorem ofBytes?_toBytes_eq_map (legible : e.data.Legible) :
    ofBytes? e.toBytes =
      (Value.ofNode? (Value.maxDepth - 1) e.data.toNode).map fun data => { e with data := data } := by
  rw [ofBytes?, toBytes, Value.ofBytes?_print (legible_toValue legible), Option.bind_some]
  obtain ⟨event, type, aggregate, room, written⟩ := e
  have uuid (u : Uuid) : Node.uuid? (Value.uuid u).toNode = some u := Node.uuid?_toNode u
  have text (s : String) : Node.text? (Value.string s).toNode = some s := Node.text?_toNode s
  have room? (s : String) : Node.optional? Node.text? (Value.string s).toNode = some (some s) := by
    simp [Node.optional?, Value.toNode, Node.isNull, Node.text?]
  rw [ofNode?]
  rcases read : Value.ofNode? (Value.maxDepth - 1) written.toNode with _ | data <;> cases room with
  | none =>
    rw [toValue, Fields.ofNode?_toNode (by simp) (by simp [fieldNames])]
    simp [Fields.required?, Fields.defaulted?, Fields.get?, uuid, text, read]
  | some room =>
    rw [toValue, Fields.ofNode?_toNode (by simp) (by simp [fieldNames])]
    simp [Fields.required?, Fields.defaulted?, Fields.get?, uuid, text, room?, read]

theorem ofBytes?_toBytes (legible : e.data.Legible) {data : Value}
    (read : Value.ofNode? (Value.maxDepth - 1) e.data.toNode = some data) :
    ofBytes? e.toBytes = some { e with data := data } := by
  rw [ofBytes?_toBytes_eq_map legible, read, Option.map_some]

end Envelope

/-- The filter finds the room that is written into an envelope. -/
theorem RoomFilter.standard_toBytes {e : Envelope} (legible : e.data.Legible) :
    RoomFilter.standard e.toBytes = e.roomId := by
  rw [standard, Envelope.toBytes, Value.ofBytes?_print (Envelope.legible_toValue legible),
    Option.bind_some, Envelope.toValue, Value.toNode, ofNode?, Fields.ofNode?]
  obtain ⟨event, type, aggregate, room, data⟩ := e
  cases room with
  | none =>
    rw [Fields.known?_memberNodes (by simp)]
    simp [Fields.defaulted?, Fields.get?]
  | some room =>
    rw [Fields.known?_memberNodes (by simp)]
    simp [Fields.defaulted?, Fields.get?, Node.optional?, Value.toNode, Node.isNull, Node.text?]

namespace Envelope

variable {m : BrokerMessage}

theorem eq_of_ofMessage? (made : ofMessage? m = some e) :
    e = ⟨m.eventId, m.eventType, m.aggregateId, m.roomId?, e.data⟩ ∧
      (m.payload = [] → e.data = .null) ∧ (m.payload ≠ [] → Value.ofBytes? m.payload = some e.data) := by
  obtain ⟨data, read, rfl⟩ := Option.map_eq_some_iff.mp made
  refine ⟨rfl, ?_, ?_⟩
  · intro empty
    rw [empty] at read
    exact (Option.some.inj read).symm
  · intro some_payload
    rwa [List.isEmpty_eq_false_iff.mpr some_payload] at read

theorem settled_data (made : ofMessage? m = some e)
    (whole : ∀ tree, Node.ofBytes? m.payload = some tree → ∀ w ∈ tree.numbers, Number.isWhole w = true) :
    e.data.Settled ∧ e.data.depth ≤ Value.maxDepth := by
  obtain ⟨-, empty, other⟩ := eq_of_ofMessage? made
  by_cases blank : m.payload = []
  · rw [empty blank]
    exact ⟨trivial, Nat.zero_le _⟩
  · obtain ⟨tree, text, read⟩ := Option.bind_eq_some_iff.mp (other blank)
    exact Value.settled_of_ofNode? read (whole tree text)

/-- A message with whole numbers in its payload is published with its own fields and the payload as data, and the
filter finds its room. The bytes are read as the same envelope exactly if the data nest less deeply than a payload
may: data of that depth are taken by the publisher and refused by every reader. -/
theorem read_unless_deepest (made : ofMessage? m = some e)
    (whole : ∀ tree, Node.ofBytes? m.payload = some tree → ∀ w ∈ tree.numbers, Number.isWhole w = true) :
    m.envelope = .ok e.toBytes ∧ e = ⟨m.eventId, m.eventType, m.aggregateId, m.roomId?, e.data⟩ ∧
      (m.payload = [] → e.data = .null) ∧ (m.payload ≠ [] → Value.ofBytes? m.payload = some e.data) ∧
      RoomFilter.standard e.toBytes = m.roomId? ∧ e.data.depth ≤ Value.maxDepth ∧
      ofBytes? e.toBytes = if e.data.depth < Value.maxDepth then some e else none := by
  obtain ⟨fields, empty, other⟩ := eq_of_ofMessage? made
  obtain ⟨settled, limited⟩ := settled_data made whole
  have room : e.roomId = m.roomId? := congrArg roomId fields
  have below : e.data.depth ≤ Value.maxDepth - 1 ↔ e.data.depth < Value.maxDepth := by
    rw [Value.maxDepth]
    omega
  have back : Value.ofNode? (Value.maxDepth - 1) e.data.toNode = _ := settled.readsBack
  refine ⟨by rw [BrokerMessage.envelope, made], fields, empty, other, ?_, limited, ?_⟩
  · rw [RoomFilter.standard_toBytes settled.legible, room]
  · rw [ofBytes?_toBytes_eq_map settled.legible, back]
    by_cases shallow : e.data.depth < Value.maxDepth
    · rw [if_pos (below.mpr shallow), if_pos shallow, Option.map_some]
    · rw [if_neg (mt below.mp shallow), if_neg shallow, Option.map_none]

/-- Of two members with one name the last counts; a zero keeps its sign. -/
theorem read_unless_deepest_shallow :
    let m : BrokerMessage := ⟨⟨1⟩, "todo.noted", ⟨2⟩,
      Bytes.ofText "\x7b\"b\":7,\"a\":18446744073709551615,\"b\":[-9223372036854775808,-0]\x7d",
      [(EventMapper.roomHeader, "tea")]⟩
    ∃ e, ofMessage? m = some e ∧ (∃ tree, Node.ofBytes? m.payload = some tree ∧
      ∀ w ∈ tree.numbers, Number.isWhole w = true) ∧ m.envelope = .ok e.toBytes ∧
      RoomFilter.standard e.toBytes = some "tea" ∧ ofBytes? e.toBytes = some e := by
  intro m
  have depth : (ofMessage? m).map (fun e => e.data.depth) = some 2 := by decide +kernel
  have numbers : (Node.ofBytes? m.payload).map (fun tree => tree.numbers.all Number.isWhole) = some true := by
    decide +kernel
  obtain ⟨e, made, two⟩ := Option.map_eq_some_iff.mp depth
  obtain ⟨tree, text, all⟩ := Option.map_eq_some_iff.mp numbers
  have whole := List.all_eq_true.mp all
  obtain ⟨written, -, -, -, room, -, back⟩ := read_unless_deepest made fun other same => by
    rw [text] at same
    exact Option.some.inj same ▸ whole
  refine ⟨e, made, ⟨tree, text, whole⟩, written, room.trans (by decide), ?_⟩
  rw [back, two]
  rfl

/-- A payload of 127 arrays in each other is published, and no reader takes its envelope. -/
theorem deepest_refused :
    let m : BrokerMessage :=
      ⟨⟨1⟩, "todo.noted", ⟨2⟩, List.replicate 127 0x5B ++ List.replicate 127 0x5D, []⟩
    ∃ e, ofMessage? m = some e ∧
      (∃ tree, Node.ofBytes? m.payload = some tree ∧ ∀ w ∈ tree.numbers, Number.isWhole w = true) ∧
      m.envelope = .ok e.toBytes ∧ RoomFilter.standard e.toBytes = m.roomId? ∧ ofBytes? e.toBytes = none := by
  intro m
  let e : Envelope := ⟨⟨1⟩, "todo.noted", ⟨2⟩, none, .nest 126⟩
  have settled : e.data.Settled := Value.settled_nest 126
  have text : Node.ofBytes? m.payload = some (Value.nest 126).toNode := by
    have printed : (Value.nest 126).print = m.payload := Value.print_nest 126
    rw [← printed, Value.ofBytes?_print settled.legible]
  have data (d : Nat) : Value.ofNode? d (Value.nest 126).toNode = if 127 ≤ d then some (.nest 126) else none := by
    have back : Value.ofNode? d (Value.nest 126).toNode = _ := (Value.settled_nest 126).readsBack
    rwa [Value.depth_nest] at back
  have made : ofMessage? m = some e := by
    have read : Value.ofBytes? m.payload = some (.nest 126) := by
      rw [Value.ofBytes?, text, Option.bind_some, data]
      rfl
    rw [ofMessage?, show m.payload.isEmpty = false from rfl, read]
    rfl
  refine ⟨e, made, ⟨_, text, ?_⟩, by rw [BrokerMessage.envelope, made], ?_, ?_⟩
  · rw [Value.numbers_nest]
    exact fun w none => absurd none List.not_mem_nil
  · rw [RoomFilter.standard_toBytes settled.legible]
    rfl
  · rw [ofBytes?_toBytes_eq_map settled.legible, data]
    rfl

end Envelope

end Workboard
