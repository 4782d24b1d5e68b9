import ConversationSearch.CommandLine.Command
import ConversationSearch.CommandLine.Grammar
import ConversationSearch.CommandLine.Perform
import ConversationSearch.Conversation
import ConversationSearch.Engine.Bulk
import ConversationSearch.Engine.Call
import ConversationSearch.Engine.Client
import ConversationSearch.Engine.Memory
import ConversationSearch.Handles
import ConversationSearch.Hits.Normalize
import ConversationSearch.Hits.Record
import ConversationSearch.Hits.Response
import ConversationSearch.Http.Failure
import ConversationSearch.Http.Host
import ConversationSearch.Http.Interface
import ConversationSearch.Http.MediaType
import ConversationSearch.Http.Message
import ConversationSearch.Http.Url
import ConversationSearch.Http.Wire
import ConversationSearch.Json.Basic
import ConversationSearch.Json.Decimal
import ConversationSearch.Json.Decoder
import ConversationSearch.Json.Double
import ConversationSearch.Json.Failure
import ConversationSearch.Json.Fault
import ConversationSearch.Json.Numeral
import ConversationSearch.Json.Place
import ConversationSearch.Json.Printer
import ConversationSearch.Json.Quoted
import ConversationSearch.Json.Reader
import ConversationSearch.Json.Reading
import ConversationSearch.Main
import ConversationSearch.Message
import ConversationSearch.Proofs.CommandLine.Typed
import ConversationSearch.Proofs.CommandLine.Verbatim
import ConversationSearch.Proofs.Documents.Codec
import ConversationSearch.Proofs.Documents.EpochMillis
import ConversationSearch.Proofs.Documents.ReadBack
import ConversationSearch.Proofs.Documents.RoundTrip
import ConversationSearch.Proofs.Documents.Validity
import ConversationSearch.Proofs.Engine.Framing
import ConversationSearch.Proofs.Engine.Indices
import ConversationSearch.Proofs.Engine.Judged
import ConversationSearch.Proofs.Engine.Retrying
import ConversationSearch.Proofs.Engine.Runs
import ConversationSearch.Proofs.Engine.Stored
import ConversationSearch.Proofs.Engine.Unavailable
import ConversationSearch.Proofs.Engine.Unwritten
import ConversationSearch.Proofs.Failing
import ConversationSearch.Proofs.Hits.Projection
import ConversationSearch.Proofs.Hits.Records
import ConversationSearch.Proofs.Hits.Responses
import ConversationSearch.Proofs.Http.Address
import ConversationSearch.Proofs.Http.Calls
import ConversationSearch.Proofs.Http.Responses
import ConversationSearch.Proofs.Json.Depth
import ConversationSearch.Proofs.Json.Exchange
import ConversationSearch.Proofs.Json.Lines
import ConversationSearch.Proofs.Json.Members
import ConversationSearch.Proofs.Json.Ordered
import ConversationSearch.Proofs.Json.Shapes
import ConversationSearch.Proofs.Json.Texts
import ConversationSearch.Proofs.Json.Tokens
import ConversationSearch.Proofs.Json.Values
import ConversationSearch.Proofs.Provisioning.Course
import ConversationSearch.Proofs.Provisioning.Independence
import ConversationSearch.Proofs.Provisioning.Inspection
import ConversationSearch.Proofs.Provisioning.Outcome
import ConversationSearch.Proofs.Provisioning.Repeated
import ConversationSearch.Proofs.Provisioning.Report
import ConversationSearch.Proofs.Schema.Coverage
import ConversationSearch.Proofs.Schema.Declared
import ConversationSearch.Proofs.Schema.Lookup
import ConversationSearch.Proofs.Schema.Verification
import ConversationSearch.Proofs.Search.Blanks
import ConversationSearch.Proofs.Search.Conditions
import ConversationSearch.Proofs.Search.DateBounds
import ConversationSearch.Proofs.Search.Evaluation
import ConversationSearch.Proofs.Search.Interpretation
import ConversationSearch.Proofs.Search.Rendering
import ConversationSearch.Proofs.Search.Wire
import ConversationSearch.Proofs.Service.Batch
import ConversationSearch.Proofs.Service.Clashing
import ConversationSearch.Proofs.Service.Identities
import ConversationSearch.Proofs.Service.Searching
import ConversationSearch.Proofs.Service.Writing
import ConversationSearch.Proofs.Session.Calls
import ConversationSearch.Proofs.Session.Store
import ConversationSearch.Proofs.Settings.Layering
import ConversationSearch.Proofs.Settings.Leaves
import ConversationSearch.Proofs.Settings.Overriding
import ConversationSearch.Proofs.Settings.Sections
import ConversationSearch.Proofs.Settings.Variables
import ConversationSearch.Proofs.Text.Cutting
import ConversationSearch.Proofs.Text.Digits
import ConversationSearch.Proofs.Text.Numerals
import ConversationSearch.Proofs.Time.BareDate
import ConversationSearch.Proofs.Time.Calendar
import ConversationSearch.Proofs.Time.Counting
import ConversationSearch.Proofs.Time.Distinct
import ConversationSearch.Proofs.Time.Floor
import ConversationSearch.Proofs.Time.Order
import ConversationSearch.Proofs.Time.Reading
import ConversationSearch.Proofs.Time.Stamp
import ConversationSearch.Proofs.Time.Written
import ConversationSearch.Proofs.Toml.Keys
import ConversationSearch.Provisioning
import ConversationSearch.Schema.Field
import ConversationSearch.Schema.Mapping
import ConversationSearch.Search.Clause
import ConversationSearch.Search.Compile
import ConversationSearch.Search.Failure
import ConversationSearch.Search.Request
import ConversationSearch.Service
import ConversationSearch.Session
import ConversationSearch.Settings.Basic
import ConversationSearch.Settings.Fault
import ConversationSearch.Settings.Index
import ConversationSearch.Settings.Layers
import ConversationSearch.Settings.Node
import ConversationSearch.Settings.Typed
import ConversationSearch.Text.Cutting
import ConversationSearch.Text.Decimal
import ConversationSearch.Text.Digits
import ConversationSearch.Text.Encoding
import ConversationSearch.Text.LowerCase
import ConversationSearch.Text.Shown
import ConversationSearch.Time.Calendar
import ConversationSearch.Time.Instant
import ConversationSearch.Time.Stamp
import ConversationSearch.Toml.Document
import ConversationSearch.Toml.Quoted
import ConversationSearch.Toml.Scalar
import ConversationSearch.Validation
