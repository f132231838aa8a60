import Workboard.Broker.Envelope
import Workboard.Channel.Broadcast

/-!
Brokers, and publishing a message to several of them in order. The first that does not take the message
ends the attempt.
-/

namespace Workboard

structure LocalBroker where
  channel : Broadcast Bytes
  closed : Bool

namespace LocalBroker

def ofCapacity (capacity : Nat) : LocalBroker := ⟨.ofCapacity capacity, false⟩

def name : String := "local"

def standardCapacity : Nat := 1024

/-- It is no failure if no one has subscribed. -/
def publish (b : LocalBroker) (m : BrokerMessage) : Except BrokerError Unit × LocalBroker :=
  if b.closed then (.error (.closed name), b)
  else
    match m.envelope with
    | .ok bytes => (.ok (), { b with channel := b.channel.send bytes })
    | .error e => (.error e, b)

def close (b : LocalBroker) : LocalBroker := { b with closed := true }

end LocalBroker

/-- How a remote broker answers a call. -/
inductive BrokerReply where
  | ok
  | publish (message : String)
  | connection (message : String)
  | encoding (message : String)
  | closed
  deriving DecidableEq

def BrokerReply.toExcept (r : BrokerReply) (broker : String) : Except BrokerError Unit :=
  match r with
  | .ok => .ok ()
  | .publish message => .error (.publish broker message)
  | .connection message => .error (.connection broker message)
  | .encoding message => .error (.encoding message)
  | .closed => .error (.closed broker)

/-- The reply to a call by its number: the last reply repeats, and no reply means success. -/
def nthReply {α : Type} (replies : List α) (n : Nat) : Option α :=
  match replies[n]? with
  | some r => some r
  | none => replies.getLast?

/-- A broker elsewhere, known by the replies it gives. -/
structure RemoteBroker where
  name : String
  publishReplies : List BrokerReply
  closeReplies : List BrokerReply
  published : Nat
  closes : Nat

inductive Broker where
  | within (b : LocalBroker)
  | remote (b : RemoteBroker)

/-- A call that reached a remote broker. -/
inductive BrokerCall where
  | publish (broker : String) (message : BrokerMessage)
  | close (broker : String)

namespace Broker

def name : Broker → String
  | .within _ => LocalBroker.name
  | .remote b => b.name

def publish (m : BrokerMessage) : Broker → Except BrokerError Unit × Broker × List BrokerCall
  | .within b =>
    let (r, b) := b.publish m
    (r, .within b, [])
  | .remote b =>
    let reply := (nthReply b.publishReplies b.published).getD .ok
    (reply.toExcept b.name, .remote { b with published := b.published + 1 }, [.publish b.name m])

def close : Broker → Except BrokerError Unit × Broker × List BrokerCall
  | .within b => (.ok (), .within b.close, [])
  | .remote b =>
    let reply := (nthReply b.closeReplies b.closes).getD .ok
    (reply.toExcept b.name, .remote { b with closes := b.closes + 1 }, [.close b.name])

def local? : Broker → Option LocalBroker
  | .within b => some b
  | .remote _ => none

end Broker

/-- Calls one after another, up to the first that fails. -/
def inTurn {β κ ω : Type} (call : β → Except κ Unit × β × List ω) :
    List β → Except κ Unit × List β × List ω
  | [] => (.ok (), [], [])
  | b :: bs =>
    match call b with
    | (.error e, b, calls) => (.error e, b :: bs, calls)
    | (.ok (), b, calls) =>
      let (r, bs, more) := inTurn call bs
      (r, b :: bs, calls ++ more)

structure Publisher where
  brokers : List Broker

namespace Publisher

def names (p : Publisher) : List String := p.brokers.map Broker.name

def publishAll (m : BrokerMessage) :
    List Broker → Except BrokerError Unit × List Broker × List BrokerCall :=
  inTurn (Broker.publish m)

/-- Stops at the first broker that fails. -/
def publish (p : Publisher) (m : BrokerMessage) :
    Except BrokerError Unit × Publisher × List BrokerCall :=
  let (r, bs, calls) := publishAll m p.brokers
  (r, ⟨bs⟩, calls)

def closeAll : List Broker → List (Except BrokerError Unit) × List Broker × List BrokerCall
  | [] => ([], [], [])
  | b :: bs =>
    let (r, b, calls) := b.close
    let (rs, bs, more) := closeAll bs
    (r :: rs, b :: bs, calls ++ more)

def firstError (rs : List (Except BrokerError Unit)) : Except BrokerError Unit :=
  match rs.findSome? fun r => match r with | .error e => some e | .ok () => none with
  | some e => .error e
  | none => .ok ()

/-- Closes every broker, and answers with the first error. -/
def close (p : Publisher) : Except BrokerError Unit × Publisher × List BrokerCall :=
  let (rs, bs, calls) := closeAll p.brokers
  (firstError rs, ⟨bs⟩, calls)

def local? (p : Publisher) : Option LocalBroker := p.brokers.findSome? Broker.local?

/-- Puts a local broker in place of the first one. -/
def setLocal (p : Publisher) (b : LocalBroker) : Publisher :=
  ⟨go p.brokers⟩
where
  go : List Broker → List Broker
    | [] => []
    | .within _ :: bs => .within b :: bs
    | b :: bs => b :: go bs

end Publisher

end Workboard
