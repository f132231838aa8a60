import Workboard.Auth.Token
import Workboard.Config.Basic
import Workboard.Realtime.Hub
import Workboard.Relay.Poll

/-!
What the parts of a running server take from its configuration.
-/

namespace Workboard

def OutboxConfig.timing (c : OutboxConfig) : RelayTiming := ⟨c.pollInterval, c.batchSize, c.metricsInterval⟩

def HubConfig.timing (c : HubConfig) : HubTiming := ⟨c.queueCapacity, c.pingInterval * 1000, c.pongTimeout * 1000⟩

namespace JwtConfig

/-- A token for a user; there is none if the calendar ends before the token does. Hours that are too many for a span of
time lead out of the calendar as well. -/
def issue? (c : JwtConfig) (user : UserId) (now : Instant) : Option String :=
  Token.issue? c.secret user c.expirationHours now

/-- The number of the day on which a token ends. -/
def lastDay (c : JwtConfig) (now : Instant) : Int :=
  (now.unixSeconds + c.expirationHours * 3600 + (now.nano / 1000000000 : Nat)).fdiv 86400

end JwtConfig

end Workboard
