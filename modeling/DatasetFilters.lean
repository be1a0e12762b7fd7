import DatasetFilters.Api.Answer
import DatasetFilters.Api.Error
import DatasetFilters.Api.Forwarding
import DatasetFilters.Api.Identity
import DatasetFilters.Api.Link
import DatasetFilters.Api.Page
import DatasetFilters.Api.Refusal
import DatasetFilters.Api.Route
import DatasetFilters.Api.Server
import DatasetFilters.Api.View
import DatasetFilters.Blueprint.Basic
import DatasetFilters.Blueprint.Document
import DatasetFilters.Caller
import DatasetFilters.Catalog.Basic
import DatasetFilters.Catalog.Client
import DatasetFilters.Catalog.Lookup
import DatasetFilters.Catalog.Memory
import DatasetFilters.Config.Basic
import DatasetFilters.Config.Document
import DatasetFilters.Config.KeyPath
import DatasetFilters.Config.LooseValue
import DatasetFilters.Config.Sources
import DatasetFilters.Dataset
import DatasetFilters.Digest.Sha256
import DatasetFilters.Dimension
import DatasetFilters.Etag.Content
import DatasetFilters.Etag.Selector
import DatasetFilters.Event
import DatasetFilters.Http.Message
import DatasetFilters.Http.SocketAddress
import DatasetFilters.Instant.Basic
import DatasetFilters.Instant.Calendar
import DatasetFilters.Instant.Parser
import DatasetFilters.Instant.Printer
import DatasetFilters.Json.Basic
import DatasetFilters.Json.FreeForm
import DatasetFilters.Json.Parser
import DatasetFilters.Json.Printer
import DatasetFilters.Json.Record
import DatasetFilters.Number.Binary64
import DatasetFilters.Output.Basic
import DatasetFilters.Output.Document
import DatasetFilters.Patch
import DatasetFilters.Proofs.Api.Address
import DatasetFilters.Proofs.Api.Disclosure
import DatasetFilters.Proofs.Api.Forwarding
import DatasetFilters.Proofs.Api.Identity
import DatasetFilters.Proofs.Api.Link
import DatasetFilters.Proofs.Api.Route
import DatasetFilters.Proofs.Blueprint.RoundTrip
import DatasetFilters.Proofs.Blueprint.Selection
import DatasetFilters.Proofs.Catalog.Address
import DatasetFilters.Proofs.Catalog.Batches
import DatasetFilters.Proofs.Catalog.Holdings
import DatasetFilters.Proofs.Catalog.Lookup
import DatasetFilters.Proofs.Catalog.Options
import DatasetFilters.Proofs.Dimension
import DatasetFilters.Proofs.Dimension.History
import DatasetFilters.Proofs.Etag.Identity
import DatasetFilters.Proofs.Etag.Layout
import DatasetFilters.Proofs.Etag.Observation
import DatasetFilters.Proofs.Instant.RoundTrip
import DatasetFilters.Proofs.Json.Record
import DatasetFilters.Proofs.Json.RoundTrip
import DatasetFilters.Proofs.Json.Text
import DatasetFilters.Proofs.Output.Artefacts
import DatasetFilters.Proofs.Output.Completion
import DatasetFilters.Proofs.Output.Refusal
import DatasetFilters.Proofs.Output.RoundTrip
import DatasetFilters.Proofs.Patch
import DatasetFilters.Proofs.Patch.Language
import DatasetFilters.Proofs.Queue.Relay
import DatasetFilters.Proofs.Queue.Traffic
import DatasetFilters.Proofs.Service.Absence
import DatasetFilters.Proofs.Service.Account
import DatasetFilters.Proofs.Service.Alone
import DatasetFilters.Proofs.Service.Atomicity
import DatasetFilters.Proofs.Service.Blueprints
import DatasetFilters.Proofs.Service.Calls
import DatasetFilters.Proofs.Service.Completion
import DatasetFilters.Proofs.Service.Composition
import DatasetFilters.Proofs.Service.Conclusion
import DatasetFilters.Proofs.Service.Conditions
import DatasetFilters.Proofs.Service.Conduct
import DatasetFilters.Proofs.Service.Consistency
import DatasetFilters.Proofs.Service.Counting
import DatasetFilters.Proofs.Service.Course
import DatasetFilters.Proofs.Service.Deed
import DatasetFilters.Proofs.Service.Delivery
import DatasetFilters.Proofs.Service.Denial
import DatasetFilters.Proofs.Service.Dispatch
import DatasetFilters.Proofs.Service.Editing
import DatasetFilters.Proofs.Service.Edits
import DatasetFilters.Proofs.Service.Follow
import DatasetFilters.Proofs.Service.Frame
import DatasetFilters.Proofs.Service.Freeze
import DatasetFilters.Proofs.Service.Hashed
import DatasetFilters.Proofs.Service.Landing
import DatasetFilters.Proofs.Service.Ledger
import DatasetFilters.Proofs.Service.Lifecycle
import DatasetFilters.Proofs.Service.Logic
import DatasetFilters.Proofs.Service.Patching
import DatasetFilters.Proofs.Service.Promotion
import DatasetFilters.Proofs.Service.Publication
import DatasetFilters.Proofs.Service.Redaction
import DatasetFilters.Proofs.Service.References
import DatasetFilters.Proofs.Service.Reliance
import DatasetFilters.Proofs.Service.Run
import DatasetFilters.Proofs.Service.Selections
import DatasetFilters.Proofs.Service.Steady
import DatasetFilters.Proofs.Service.Story
import DatasetFilters.Proofs.Service.Stroke
import DatasetFilters.Proofs.Service.Strokes
import DatasetFilters.Proofs.Service.Submission
import DatasetFilters.Proofs.Service.Tidiness
import DatasetFilters.Proofs.Service.Unconflicted
import DatasetFilters.Proofs.Service.Undisturbed
import DatasetFilters.Proofs.Service.Validation
import DatasetFilters.Proofs.Service.Visibility
import DatasetFilters.Proofs.Service.Writing
import DatasetFilters.Proofs.Store.CompareAndSet
import DatasetFilters.Proofs.Store.Documents
import DatasetFilters.Proofs.Store.Edit
import DatasetFilters.Proofs.Store.Held
import DatasetFilters.Proofs.Store.Inventory
import DatasetFilters.Proofs.Store.Links
import DatasetFilters.Proofs.Store.Outputs
import DatasetFilters.Proofs.Store.Persistence
import DatasetFilters.Proofs.Store.Stamps
import DatasetFilters.Proofs.Text.Cut
import DatasetFilters.Proofs.Text.Lossy
import DatasetFilters.Proofs.Text.Numeral
import DatasetFilters.Proofs.Text.Percent
import DatasetFilters.Proofs.Text.Query
import DatasetFilters.Queue.Channel
import DatasetFilters.Queue.Webhook
import DatasetFilters.Service.Blueprints
import DatasetFilters.Service.Counters
import DatasetFilters.Service.Error
import DatasetFilters.Service.Outputs
import DatasetFilters.Service.Request
import DatasetFilters.Service.Selections
import DatasetFilters.Service.Validation
import DatasetFilters.Store.Backend
import DatasetFilters.Store.Basic
import DatasetFilters.Store.WriteClock
import DatasetFilters.Table
import DatasetFilters.Text.Blank
import DatasetFilters.Text.Decimal
import DatasetFilters.Text.Octets
import DatasetFilters.Text.Percent
