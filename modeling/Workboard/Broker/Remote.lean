import Workboard.Broker.Message

/-!
What can go wrong with brokers outside of the process, and what their users see of it.
-/

namespace Workboard

inductive RedisError where
  | connection (message : String)
  | publish (message : String)
  | subscribe (message : String)
  | config (message : String)
  deriving DecidableEq

namespace RedisError

def message : RedisError → String
  | .connection m => "Redis 连接错误: " ++ m
  | .publish m => "Redis 发布错误: " ++ m
  | .subscribe m => "Redis 订阅错误: " ++ m
  | .config m => "配置错误: " ++ m

def brokerName : String := "redis"

def toBroker : RedisError → BrokerError
  | .publish m => .publish brokerName m
  | e => .connection brokerName e.message

end RedisError

inductive KafkaError where
  | connection (message : String)
  | producer (message : String)
  | config (message : String)
  deriving DecidableEq

namespace KafkaError

def message : KafkaError → String
  | .connection m => "Kafka 连接错误: " ++ m
  | .producer m => "Kafka 生产者错误: " ++ m
  | .config m => "配置错误: " ++ m

def brokerName : String := "kafka"

def toBroker : KafkaError → BrokerError
  | .connection m => .connection brokerName m
  | e => .publish brokerName e.message

end KafkaError

/-- What a client of a key-value server complains of. -/
inductive ClientFault where
  | invalidConfig
  | inputOutput
  | authentication
  | wrongType

def RedisError.ofFault (fault : ClientFault) (text : String) : RedisError :=
  match fault with
  | .invalidConfig => .config text
  | _ => .connection text

/-- What a producer of records complains of. -/
inductive ProducerFault where
  | canceled
  | production
  | flush
  | config
  | global
  | subscription

def KafkaError.ofFault (fault : ProducerFault) (text : String) : KafkaError :=
  match fault with
  | .config => .config text
  | .canceled => .producer "操作被取消"
  | .production | .flush => .producer text
  | .global | .subscription => .connection text

end Workboard
