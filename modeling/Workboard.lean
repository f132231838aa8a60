import Workboard.Auth.Base64Url
import Workboard.Auth.Claims
import Workboard.Auth.Credentials
import Workboard.Auth.Sha256
import Workboard.Auth.Token
import Workboard.Broker.Envelope
import Workboard.Broker.Kafka
import Workboard.Broker.Message
import Workboard.Broker.Publisher
import Workboard.Broker.Redis
import Workboard.Broker.Remote
import Workboard.Cache.Aside
import Workboard.Cache.Binary
import Workboard.Cache.Codec
import Workboard.Cache.Error
import Workboard.Cache.FlightScript
import Workboard.Cache.Script
import Workboard.Cache.SingleFlight
import Workboard.Cache.Store
import Workboard.Channel.Broadcast
import Workboard.Config.Basic
import Workboard.Config.Environment
import Workboard.Config.Layers
import Workboard.Config.Tree
import Workboard.Config.Variable
import Workboard.Config.Yaml
import Workboard.Decimal.Reading
import Workboard.Decimal.Shortest
import Workboard.Fault
import Workboard.Http.Body
import Workboard.Http.Error
import Workboard.Http.Live
import Workboard.Http.Request
import Workboard.Http.Server
import Workboard.Http.Socket
import Workboard.Uuid
import Workboard.Json.Fields
import Workboard.Json.Node
import Workboard.Json.Number
import Workboard.Json.Text
import Workboard.Json.Value
import Workboard.KeyValue.Address
import Workboard.KeyValue.Server
import Workboard.KeyValue.Store
import Workboard.Metrics.Exposition
import Workboard.Outbox.Record
import Workboard.Outbox.Session
import Workboard.Outbox.Store
import Workboard.Realtime.Listener
import Workboard.Realtime.Hub
import Workboard.Realtime.HubScript
import Workboard.Realtime.Queue
import Workboard.Realtime.Readers
import Workboard.Relay.Batch
import Workboard.Relay.Bench
import Workboard.Relay.Poll
import Workboard.Scenario.Brokers
import Workboard.Scenario.Caches
import Workboard.Scenario.Config
import Workboard.Scenario.Errors
import Workboard.Scenario.Http
import Workboard.Scenario.Hub
import Workboard.Scenario.Infrastructure
import Workboard.Scenario.Input
import Workboard.Scenario.Outbox
import Workboard.Scenario.Relay
import Workboard.Scenario.Report
import Workboard.Scenario.Service
import Workboard.Scenario.Todos
import Workboard.Scenario.Tokens
import Workboard.Scenario.Work
import Workboard.Service.Basic
import Workboard.Service.CachedTodos
import Workboard.Service.Error
import Workboard.Task
import Workboard.Text.Basic
import Workboard.Text.Percent
import Workboard.Time.Instant
import Workboard.Time.Rfc3339
import Workboard.Todo.Basic
import Workboard.Todo.Event
import Workboard.Todo.Mapping
import Workboard.Todo.Repository
import Workboard.Width
import Workboard.Work.Basic
import Workboard.Work.Execute
import Workboard.Work.Interleaving
import Workboard.Work.Requests
import Workboard.Work.Scope
import Workboard.Work.Script
import Workboard.Proofs.Outbox.Claims
import Workboard.Proofs.Work.Atomicity
import Workboard.Proofs.Outbox.Order
import Workboard.Proofs.Relay.Order
import Workboard.Proofs.Text.Digits
import Workboard.Proofs.Uuid
import Workboard.Proofs.Time.Rfc3339
import Workboard.Proofs.Json.Text
import Workboard.Proofs.Json.Value
import Workboard.Proofs.Json.Fields
import Workboard.Proofs.Todo.Json
import Workboard.Proofs.Work.Commit
import Workboard.Proofs.Todo.Replay
import Workboard.Proofs.Service.Change
import Workboard.Proofs.Cache.Reading
import Workboard.Proofs.Todo.Repository
import Workboard.Proofs.Service.Stored
import Workboard.Proofs.Service.Replay
import Workboard.Proofs.Cache.Store
import Workboard.Proofs.Auth.Base64Url
import Workboard.Proofs.Auth.Token
import Workboard.Proofs.Broker.Ordering
import Workboard.Proofs.Broker.Routing
import Workboard.Proofs.Cache.Aside
import Workboard.Proofs.Cache.Coherent
import Workboard.Proofs.Cache.Binary
import Workboard.Proofs.Cache.Codec
import Workboard.Proofs.Cache.Framing
import Workboard.Proofs.Cache.Todos
import Workboard.Proofs.Cache.Keys
import Workboard.Proofs.Service.Questions
import Workboard.Proofs.Service.Transparent
import Workboard.Realtime.History
import Workboard.Proofs.Realtime.Serving
import Workboard.Proofs.Realtime.Isolation
import Workboard.Proofs.Realtime.Queue
import Workboard.Proofs.Realtime.Lifetime
import Workboard.Realtime.Upgrades
import Workboard.Proofs.Realtime.Upgrades
import Workboard.Outbox.Ledger
import Workboard.Proofs.Outbox.Exclusive
import Workboard.Proofs.Outbox.Marks
import Workboard.Proofs.Outbox.Calls
import Workboard.Proofs.Outbox.Evolution
import Workboard.Proofs.Relay.Refusal
import Workboard.Proofs.Relay.Progress
import Workboard.Cache.Interleaving
import Workboard.Proofs.Cache.Steps
import Workboard.Proofs.Cache.Interleaving
import Workboard.Proofs.Cache.Race
import Workboard.Cache.Flights
import Workboard.Proofs.Cache.Flights
import Workboard.Proofs.Cache.FlightsApart
import Workboard.Proofs.Cache.Followers
import Workboard.Proofs.Cache.Sharing
import Workboard.Proofs.Cache.Provenance
import Workboard.Proofs.Cache.Late
import Workboard.Proofs.Cache.Tags
import Workboard.Proofs.Cache.Membership
import Workboard.Relay.Publishing
import Workboard.Proofs.Relay.Attempts
import Workboard.Proofs.Relay.Written
import Workboard.Proofs.Relay.Turns
import Workboard.Proofs.Relay.Publishing
import Workboard.Proofs.Relay.Accounts
import Workboard.Proofs.Relay.Loop
import Workboard.Proofs.Relay.Rest
import Workboard.Http.Access
import Workboard.Proofs.Http.Serving
import Workboard.Proofs.Cache.Whole
import Workboard.Proofs.Service.Remembered
import Workboard.Proofs.Service.Homes
import Workboard.Proofs.Http.Reached
import Workboard.Proofs.Work.Looking
import Workboard.Proofs.Work.Counting
import Workboard.Proofs.Work.Interleaving
import Workboard.Proofs.Work.Requests
import Workboard.Proofs.Service.Unseen
import Workboard.Proofs.Service.Ungated
import Workboard.Proofs.Service.Revision
import Workboard.Proofs.Service.Telling
import Workboard.Proofs.Service.LostUpdates
import Workboard.Proofs.Http.Unseen
import Workboard.Proofs.Http.Members
import Workboard.Todo.Life
import Workboard.Http.Heartbeat
import Workboard.Relay.Reports
import Workboard.Config.Running
import Workboard.Proofs.Json.Members
import Workboard.Proofs.Json.Number
import Workboard.Proofs.Json.Depth
import Workboard.Proofs.Json.Written
import Workboard.Proofs.Broker.Envelope
import Workboard.Proofs.Realtime.Rooms
import Workboard.Proofs.Time.Span
import Workboard.Proofs.Realtime.Backoff
import Workboard.Proofs.Todo.Life
import Workboard.Proofs.Http.Heartbeat
import Workboard.Proofs.Http.Silence
import Workboard.Proofs.Http.Tasks
import Workboard.Proofs.Time.Calendar
import Workboard.Proofs.Relay.Reports
import Workboard.Proofs.Config.Running
import Workboard.Realtime.Wakeups
import Workboard.Proofs.Realtime.Wakeups
