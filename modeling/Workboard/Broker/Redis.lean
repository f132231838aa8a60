import Workboard.Broker.Envelope
import Workboard.Broker.Remote
import Workboard.KeyValue.Server

/-!
Messages as envelopes on channels of a key-value server: the channel follows from the scope of the event.
-/

namespace Workboard

open KeyValue

structure RedisBroker where
  channelPrefix : String
  closed : Bool

namespace RedisBroker

def channelOf (channelPrefix scope : String) : String := channelPrefix ++ scope

def channel (b : RedisBroker) (m : BrokerMessage) : String := channelOf b.channelPrefix m.scope

/-- The server has to tell how many subscribers it reached. -/
def tellsCount : Reply → Bool
  | .number _ => true
  | .text t => (Server.number? t).isSome
  | _ => false

def publish (b : RedisBroker) (s : Server) (m : BrokerMessage) : Except BrokerError Unit × Server :=
  if b.closed then (.error (.closed RedisError.brokerName), s)
  else
    match m.envelope with
    | .error e => (.error e, s)
    | .ok bytes =>
      let (r, s) := s.reply (.publish (b.channel m) bytes)
      if tellsCount r then (.ok (), s)
      else
        let e : RedisError := .publish ("发布到频道 " ++ b.channel m ++ " 失败: " ++ "the reply is no count")
        (.error e.toBroker, s)

def close (b : RedisBroker) : RedisBroker := { b with closed := true }

end RedisBroker

end Workboard
