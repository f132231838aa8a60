import Workboard.Config.Basic
import Workboard.Text.Basic
import Workboard.Width

/-!
Configuration from variables of the environment, one variable a setting. A text that cannot be read leaves
the value for development in place.
-/

namespace Workboard

structure Environment where
  entries : List (String × String)

namespace Environment

def get? (e : Environment) (name : String) : Option String :=
  (e.entries.find? fun v => v.1 = name).map (·.2)

def textOr (e : Environment) (name default : String) : String := (e.get? name).getD default

def natOr (e : Environment) (name : String) (bits default : Nat) : Nat :=
  let read (s : String) : Option Nat :=
    let cs := s.toList
    (natOfDecimal? (if cs.head? == some '+' then cs.drop 1 else cs)).filter (Width.fits bits)
  ((e.get? name).bind read).getD default

def int64Or (e : Environment) (name : String) (default : Int) : Int :=
  let read (s : String) : Option Int :=
    (intOfDecimal? s.toList).filter (Width.fitsSigned 64)
  ((e.get? name).bind read).getD default

def flagOr (e : Environment) (name : String) (default : Bool) : Bool :=
  match e.get? name with
  | some "true" => true
  | some "false" => false
  | _ => default

/-- The items between commas, trimmed and without empty ones. -/
def listOr (e : Environment) (name : String) (default : List String) : List String :=
  match e.get? name with
  | some s => ((s.splitOn ",").map trim).filter (!·.isEmpty)
  | none => default

/-- A variable that must hold a text. -/
def demanded (e : Environment) (name : String) : Except ConfigError String :=
  match e.get? name with
  | some s => if s.isEmpty then .error (.missingVariable name) else .ok s
  | none => .error (.missingVariable name)

/-- A variable that may be missing or empty. -/
def defaulted (e : Environment) (name default : String) : Except ConfigError String :=
  .ok ((e.demanded name).toOption.getD default)

end Environment

namespace AppConfig

/-- The configuration of an environment, with a reader for the settings that matter most. -/
def ofEnvironment (critical : String → String → Except ConfigError String) (e : Environment) :
    Except ConfigError AppConfig := do
  let d := development
  let databaseUrl ← critical "DATABASE_URL" d.database.url
  let secret ← critical "JWT_SECRET" d.jwt.secret
  let redisUrl ← critical "REDIS_URL" d.redis.url
  return {
    database := ⟨databaseUrl, e.natOr "DB_MAX_CONNECTIONS" 32 d.database.maxConnections⟩
    jwt := ⟨secret, e.int64Or "JWT_EXPIRATION_HOURS" d.jwt.expirationHours⟩
    server := ⟨e.textOr "SERVER_HOST" d.server.host, e.natOr "SERVER_PORT" 16 d.server.port⟩
    redis := ⟨redisUrl, e.textOr "REDIS_CHANNEL_PREFIX" d.redis.channelPrefix⟩
    kafka := ⟨e.flagOr "KAFKA_ENABLED" d.kafka.enabled, e.listOr "KAFKA_BROKERS" d.kafka.brokers,
      e.textOr "KAFKA_TOPIC_PREFIX" d.kafka.topicPrefix,
      e.natOr "KAFKA_SEND_TIMEOUT_MS" 64 d.kafka.sendTimeout, e.textOr "KAFKA_ACKS" d.kafka.acks⟩
    outbox := ⟨e.natOr "OUTBOX_POLL_INTERVAL_MS" 64 d.outbox.pollInterval,
      e.natOr "OUTBOX_BATCH_SIZE" 64 d.outbox.batchSize,
      e.natOr "OUTBOX_METRICS_INTERVAL_MS" 64 d.outbox.metricsInterval⟩
    cache := ⟨e.textOr "CACHE_KEY_PREFIX" d.cache.keyPrefix,
      e.natOr "CACHE_ENTITY_TTL_SECS" 64 d.cache.entityTtl,
      e.natOr "CACHE_QUERY_TTL_SECS" 64 d.cache.queryTtl,
      e.natOr "CACHE_TAG_TTL_SECS" 64 d.cache.tagTtl⟩
    hub := ⟨e.natOr "HUB_QUEUE_CAPACITY" 64 d.hub.queueCapacity,
      e.natOr "HUB_PING_INTERVAL_SECS" 64 d.hub.pingInterval,
      e.natOr "HUB_PONG_TIMEOUT_SECS" 64 d.hub.pongTimeout,
      e.textOr "HUB_GLOBAL_CHANNEL" d.hub.globalChannel,
      e.listOr "HUB_SCOPE_CHANNELS" d.hub.scopeChannels⟩ }

/-- The configuration for production, whose critical settings must be there. -/
def strict (e : Environment) : Except ConfigError AppConfig := ofEnvironment (fun name _ => e.demanded name) e

def withDefaults (e : Environment) : AppConfig :=
  (ofEnvironment e.defaulted e).toOption.getD development

end AppConfig

end Workboard
