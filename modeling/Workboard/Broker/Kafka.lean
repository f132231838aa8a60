import Workboard.Broker.Remote
import Workboard.Config.Basic
import Workboard.Width

/-!
Messages as records of a log: the topic follows from the scope of the event, and records with one key keep
their order. Whoever reads a log finds the records of one topic and one key in the order in which they were
written; nothing is promised about the order of others.
-/

namespace Workboard

structure LogRecord where
  topic : String
  key : String
  payload : Bytes
  headers : List (String × String)
  deriving DecidableEq

structure KafkaBroker where
  topicPrefix : String
  /-- In milliseconds. -/
  sendTimeout : Nat
  closed : Bool

namespace KafkaBroker

def topicOf (topicPrefix : String) (scope : String) : String := topicPrefix ++ "." ++ scope

/-- Event type and aggregate come first, then the message's own headers. -/
def headersOf (m : BrokerMessage) : List (String × String) :=
  ("event_type", m.eventType) :: ("aggregate_id", m.aggregateId.toText) :: m.headers

def record (b : KafkaBroker) (m : BrokerMessage) : LogRecord where
  topic := topicOf b.topicPrefix m.scope
  key := m.orderingKey
  payload := m.payload
  headers := headersOf m

/-- The longest time after which a record may be given up. -/
def maxSendTimeout : Nat := Width.count 31 - 1

/-- Whether all replicas have to acknowledge, which a producer without duplicates demands. -/
def asksAll (acks : String) : Bool :=
  let cs := acks.toList.map Char.toLower
  let number := cs.dropWhile Char.isWhitespace
  let digits := (number.drop 1).takeWhile Char.isDigit
  cs = ['a', 'l', 'l'] || (number.head? == some '-' && digits == ['1'])

def ofConfig (c : KafkaConfig) : Except KafkaError KafkaBroker :=
  if !asksAll c.acks then
    .error (.config "创建 Kafka 生产者失败: acks must be all")
  else if maxSendTimeout < c.sendTimeout then
    .error (.config "创建 Kafka 生产者失败: the timeout is out of range")
  else .ok ⟨c.topicPrefix, c.sendTimeout, false⟩

/-- Hands a record over; `deliver` tells how the cluster took it. -/
def publish (b : KafkaBroker) (deliver : LogRecord → Except KafkaError Unit) (m : BrokerMessage) :
    Except BrokerError Unit :=
  if b.closed then .error (.closed KafkaError.brokerName)
  else
    match deliver (b.record m) with
    | .ok () => .ok ()
    | .error e => .error e.toBroker

/-- Waits for what was handed over, unless it is closed already; `flush` tells how that went. -/
def close (b : KafkaBroker) (flush : Except KafkaError Unit) : Except BrokerError Unit × KafkaBroker :=
  if b.closed then (.ok (), b)
  else
    match flush with
    | .ok () => (.ok (), { b with closed := true })
    | .error e => (.error e.toBroker, { b with closed := true })

end KafkaBroker

/-- A message that is published, and what the cluster answers to its record. -/
structure PublishAttempt where
  message : BrokerMessage
  deliver : LogRecord → Except KafkaError Unit

def LogRecord.isUnder (topic key : String) (r : LogRecord) : Bool :=
  decide (r.topic = topic) && decide (r.key = key)

/-- Of each topic and key, those records have been seen that were written first, in their order. -/
def SeenInOrder (written seen : List LogRecord) : Prop :=
  ∀ topic key, seen.filter (LogRecord.isUnder topic key) <+: written.filter (LogRecord.isUnder topic key)

namespace KafkaBroker

/-- The messages that the cluster took, in the order in which they were published. -/
def taken (b : KafkaBroker) (attempts : List PublishAttempt) : List BrokerMessage :=
  (attempts.filter fun a => (b.publish a.deliver a.message).isOk).map fun a => a.message

/-- What the log holds once some messages have been published. -/
def written (b : KafkaBroker) (attempts : List PublishAttempt) : List LogRecord :=
  (b.taken attempts).map b.record

end KafkaBroker

end Workboard
