import Workboard.Broker.Kafka
import Workboard.Proofs.Uuid

/-!
Which messages keep their order on a log. The key of a record tells the event type and the aggregate, so that
the events of one type of one aggregate are seen as they were published, and events of two types need not be.
-/

namespace Workboard

namespace BrokerMessage

variable {m n : BrokerMessage}

/-- The text of an identifier has a fixed length, so a key has one reading only. -/
theorem orderingKey_eq_iff :
    m.orderingKey = n.orderingKey ↔ m.eventType = n.eventType ∧ m.aggregateId = n.aggregateId := by
  constructor
  · intro same
    have chars : (m.eventType ++ ".").toList ++ m.aggregateId.toText.toList =
        (n.eventType ++ ".").toList ++ n.aggregateId.toText.toList := by
      rw [← String.toList_append, ← String.toList_append]
      exact congrArg String.toList same
    have long : m.aggregateId.toText.toList.length = n.aggregateId.toText.toList.length := by
      rw [Uuid.length_toText, Uuid.length_toText]
    obtain ⟨types, ids⟩ := List.append_inj' chars long
    refine ⟨?_, Uuid.toText_injective (String.toList_injective ids)⟩
    exact String.append_left_inj "." |>.mp (String.toList_injective types)
  · rintro ⟨type, aggregate⟩
    rw [orderingKey, orderingKey, type, aggregate]

end BrokerMessage

namespace SeenInOrder

variable {r s : LogRecord}

/-- Neighbours that differ in topic or key may be seen in either order. -/
theorem swap (apart : r.topic ≠ s.topic ∨ r.key ≠ s.key) (front back : List LogRecord) :
    SeenInOrder (front ++ r :: s :: back) (front ++ s :: r :: back) := by
  intro topic key
  have once : ¬ (r.isUnder topic key = true ∧ s.isUnder topic key = true) := by
    simp only [LogRecord.isUnder, Bool.and_eq_true, decide_eq_true_eq]
    rintro ⟨⟨rfl, rfl⟩, sameTopic, sameKey⟩
    exact apart.elim (fun other => other sameTopic.symm) fun other => other sameKey.symm
  by_cases first : r.isUnder topic key = true
  · have second : s.isUnder topic key = false := by simpa [first] using once
    simp [first, second]
  · simp [List.filter_cons, first]

end SeenInOrder

namespace KafkaBroker

theorem topic_record_eq_iff (b : KafkaBroker) {m n : BrokerMessage} :
    (b.record m).topic = (b.record n).topic ↔ m.scope = n.scope :=
  String.append_right_inj (b.topicPrefix ++ ".")

/-- The records under the topic and the key of a message are those of its event type and aggregate. -/
theorem isUnder_record (b : KafkaBroker) (m n : BrokerMessage) :
    (b.record n).isUnder (b.record m).topic (b.record m).key =
      decide (n.eventType = m.eventType ∧ n.aggregateId = m.aggregateId) := by
  rw [LogRecord.isUnder, ← Bool.decide_and, decide_eq_decide, topic_record_eq_iff]
  constructor
  · exact fun same => BrokerMessage.orderingKey_eq_iff.mp same.2
  · intro same
    exact ⟨congrArg BrokerMessage.scopeOf same.1, BrokerMessage.orderingKey_eq_iff.mpr same⟩

/-- Two messages have the same topic if their scopes agree, and the same key if their event types and their
aggregates agree. So whoever reads the log sees the events of one type of one aggregate in the order in which
they were published. -/
theorem orders_each_event_type (b : KafkaBroker) :
    (∀ m n : BrokerMessage, (b.record m).topic = (b.record n).topic ↔ m.scope = n.scope) ∧
      (∀ m n : BrokerMessage, (b.record m).key = (b.record n).key ↔
        m.eventType = n.eventType ∧ m.aggregateId = n.aggregateId) ∧
      ∀ attempts seen, SeenInOrder (b.written attempts) seen → ∀ m : BrokerMessage,
        seen.filter (LogRecord.isUnder (b.record m).topic (b.record m).key) <+:
          ((b.taken attempts).filter fun n =>
            n.eventType = m.eventType ∧ n.aggregateId = m.aggregateId).map b.record := by
  refine ⟨fun m n => b.topic_record_eq_iff, fun m n => BrokerMessage.orderingKey_eq_iff, ?_⟩
  intro attempts seen inOrder m
  have under := inOrder (b.record m).topic (b.record m).key
  have own : (LogRecord.isUnder (b.record m).topic (b.record m).key) ∘ b.record = fun n =>
      decide (n.eventType = m.eventType ∧ n.aggregateId = m.aggregateId) :=
    funext (b.isUnder_record m)
  rwa [written, List.filter_map, own] at under

def ledger : KafkaBroker := ⟨"taskhub", 5000, false⟩

def news (eventType : String) (aggregate : Uuid) (payload : Bytes) : BrokerMessage :=
  ⟨⟨9⟩, eventType, aggregate, payload, []⟩

def accepted (m : BrokerMessage) : PublishAttempt := ⟨m, fun _ => .ok ()⟩

def lost (m : BrokerMessage) : PublishAttempt := ⟨m, fun _ => .error (.producer "timed out")⟩

/-- One to-do is renamed twice, and the record of its completion is lost. Another to-do is renamed as well. -/
def renamings : List PublishAttempt :=
  [accepted (news "todo.renamed" ⟨1⟩ [1]), accepted (news "todo.renamed" ⟨2⟩ [2]),
    lost (news "todo.completed" ⟨1⟩ [3]), accepted (news "todo.renamed" ⟨1⟩ [4])]

theorem orders_each_event_type_renamed :
    let seen := [ledger.record (news "todo.renamed" ⟨2⟩ [2]), ledger.record (news "todo.renamed" ⟨1⟩ [1]),
      ledger.record (news "todo.renamed" ⟨1⟩ [4])]
    SeenInOrder (ledger.written renamings) seen ∧
      seen.filter (LogRecord.isUnder (ledger.record (news "todo.renamed" ⟨1⟩ [])).topic
          (ledger.record (news "todo.renamed" ⟨1⟩ [])).key) <+:
        [ledger.record (news "todo.renamed" ⟨1⟩ [1]), ledger.record (news "todo.renamed" ⟨1⟩ [4])] := by
  intro seen
  have inOrder : SeenInOrder (ledger.written renamings) seen :=
    SeenInOrder.swap (.inr (mt BrokerMessage.orderingKey_eq_iff.mp (by decide))) [] [_]
  exact ⟨inOrder, (orders_each_event_type ledger).2.2 renamings seen inOrder (news "todo.renamed" ⟨1⟩ [])⟩

/-- Two events of one to-do have the same topic and different keys, and the later one may be seen first. -/
theorem types_seen_out_of_order :
    let created := news "todo.created" ⟨1⟩ [1]
    let renamed := news "todo.renamed" ⟨1⟩ [2]
    created.aggregateId = renamed.aggregateId ∧ created.scope = renamed.scope ∧
      (ledger.record created).key ≠ (ledger.record renamed).key ∧
      SeenInOrder (ledger.written [accepted created, accepted renamed])
        [ledger.record renamed, ledger.record created] := by
  intro created renamed
  have apart : (ledger.record created).key ≠ (ledger.record renamed).key :=
    mt BrokerMessage.orderingKey_eq_iff.mp (by decide)
  exact ⟨rfl, by decide, apart, SeenInOrder.swap (.inr apart) [] []⟩

end KafkaBroker

end Workboard
