import Workboard.Scenario.Report
import Workboard.Config.Layers
import Workboard.Realtime.Hub
import Workboard.Relay.Poll

/-!
Configurations that are loaded, changed and validated.
-/

namespace Workboard.Scenario

open Json

def configKind : ConfigError → String
  | .missingVariable _ => "MissingEnv"
  | .noDatabaseUrl => "InvalidDatabaseUrl"
  | .noConnections => "InvalidDatabaseConfig"
  | .shortSecret | .developmentSecret => "InvalidJwtSecret"
  | .noRedisUrl => "InvalidRedisConfig"
  | .noBrokers => "InvalidKafkaConfig"
  | .noOutboxPace => "InvalidOutboxConfig"
  | .noQueue | .timeoutWithinPing => "InvalidHubConfig"
  | .unreadable _ => "Load"

def configFailure (e : ConfigError) : Value := failure (configKind e) e.message

def validity (c : AppConfig) : Value :=
  match c.validate with
  | .ok _ => str "ok"
  | .error e => configFailure e

/-- Seconds and the nanoseconds over them. -/
def milliseconds (n : Nat) : Value := .array [nat (n / 1000), nat (n % 1000 * 1000000)]

def seconds (n : Nat) : Value := .array [nat n, nat 0]

def durations (c : AppConfig) : List Value :=
  [milliseconds c.outbox.pollInterval, milliseconds c.outbox.metricsInterval,
    seconds c.cache.entityTtl, seconds c.cache.queryTtl, seconds c.cache.tagTtl,
    seconds c.hub.pingInterval, seconds c.hub.pongTimeout]

def configReport : Except ConfigError AppConfig → Value
  | .ok c => obj [("ok", c.toTree), ("valid", validity c), ("durations", .array (durations c))]
  | .error e => configFailure e

def readEnvironment (v : Value) : Got Environment := do
  let ms ← membersOf v "env"
  return ⟨← ms.mapM fun (name, w) => do return (name, ← need name (asText w))⟩

def runConfigEnv (v : Value) : Got Value := do
  let e ← readEnvironment v
  match ← get v "mode" asText with
  | "strict" => return configReport (AppConfig.strict e)
  | _ => return configReport (.ok (AppConfig.withDefaults e))

def runConfigLoad (v : Value) : Got Value := do
  let e ← readEnvironment v
  return configReport (AppConfig.load e ((member? v "yaml").bind asText))

def productionSecret : String := "production-grade-secret-key-with-sufficient-length"

def runConfigValidate (v : Value) : Got Value := do
  let start :=
    if ← flag v "production" then
      { AppConfig.development with jwt := ⟨productionSecret, AppConfig.development.jwt.expirationHours⟩ }
    else AppConfig.development
  let changes := Value.object (← membersOf v "set")
  match AppConfig.ofTree? (Config.overlay start.toTree changes) with
  | some c => return validity c
  | none => return jsonError

end Workboard.Scenario
