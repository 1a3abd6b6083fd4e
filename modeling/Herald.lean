import Herald.Broker
import Herald.Broker.Consumer
import Herald.Configuration.Dotenv
import Herald.Database
import Herald.Gateway.Client
import Herald.Health.Probe
import Herald.Launch
import Herald.Pipeline.Run
import Herald.Pool.Workload
import Herald.Recommendation
import Herald.Recommendation.Schedule
import Herald.Redis
import Herald.RoomService
import Herald.Proofs.Pool.Step
import Herald.Proofs.Pool.Ledger
import Herald.Proofs.Pool.Tenure
import Herald.Proofs.Pool.Accounting
import Herald.Proofs.Pool.Capacity
import Herald.Proofs.Pool.Backpressure
import Herald.Proofs.Pool.Rest
import Herald.Proofs.Delivery.Record
import Herald.Proofs.Delivery.Sends
import Herald.Proofs.Delivery.Course
import Herald.Proofs.Delivery.Books
import Herald.Proofs.Delivery.Ledger
import Herald.Proofs.Delivery.Queue
import Herald.Proofs.Delivery.Progress
import Herald.Proofs.Delivery.Attempts
import Herald.Proofs.Audience
import Herald.Proofs.Text.Decimal
import Herald.Proofs.Text.Number
import Herald.Proofs.Configuration
import Herald.Proofs.Cache
import Herald.Proofs.Cooldown
import Herald.Proofs.Delivery.Chronicle
import Herald.Proofs.Delivery.Rest
import Herald.Proofs.Delivery.Dead
import Herald.Proofs.Delivery.Cleanup
import Herald.Proofs.Keys
import Herald.Proofs.Text.Utf8
import Herald.Proofs.Json.Grammar
import Herald.Proofs.Json.Reading
import Herald.Proofs.Json.Canonical
import Herald.Proofs.Json.Record
import Herald.Proofs.Event.Codec
import Herald.Proofs.Notification.Codec
import Herald.Proofs.History
import Herald.Proofs.Gateway.Envelope
import Herald.Proofs.Json.Fields
import Herald.Proofs.Gateway.Verdict
import Herald.Proofs.Gateway.Removal
import Herald.Proofs.Notification.Return
import Herald.Proofs.Content
import Herald.Proofs.Lookups
import Herald.Proofs.Phrasing
import Herald.Proofs.Membership
import Herald.Proofs.Delivery.Writes
import Herald.Proofs.Pipeline.Step
import Herald.Proofs.Pipeline.Provenance
import Herald.Proofs.Pipeline.Causes
import Herald.Proofs.Pipeline.Overlap
import Herald.Proofs.Pipeline.Secrecy
import Herald.Proofs.Pipeline.Rest
import Herald.Proofs.Pool.Relabel
import Herald.Proofs.Delivery.Plain
import Herald.Proofs.Pipeline.Alike
import Herald.Proofs.Pipeline.Dispatch
import Herald.Proofs.Pipeline.Erasure
import Herald.Proofs.Broker.Settlement
import Herald.Proofs.Join
import Herald.Proofs.Suggestion
import Herald.Proofs.Names
import Herald.Proofs.Registry
import Herald.Proofs.Recommendation
import Herald.Proofs.Welcome
import Herald.Proofs.Recipients
import Herald.Proofs.Database
import Herald.Proofs.Pool.Stopping
import Herald.Proofs.Pipeline.Handling
import Herald.Proofs.Delivery.Archive
import Herald.Proofs.Delivery.Journal
import Herald.Proofs.Delivery.Effects
import Herald.Proofs.Delivery.FanOut
import Herald.Proofs.Delivery.Prompt
import Herald.Proofs.Delivery.Deadline
import Herald.Proofs.Delivery.Overrun
import Herald.Proofs.Pipeline.Attribution
import Herald.Proofs.Pipeline.Deadline
import Herald.Proofs.Launch
import Herald.Proofs.Recommendation.Schedule
import Herald.Proofs.Redis
import Herald.Proofs.Http.Escape
import Herald.Proofs.Http.Url
import Herald.Proofs.RoomService
import Herald.Proofs.Configuration.Dotenv
import Herald.Proofs.Health
import Herald.Proofs.Keyspace
import Herald.Proofs.Keyspace.Replies
import Herald.Proofs.Phrasing.Count
import Herald.Proofs.Phrasing.Order
