import Signpost.Binding.Bind
import Signpost.Binding.Decode
import Signpost.Binding.Populate
import Signpost.Binding.Type
import Signpost.Binding.Value
import Signpost.Decimal.Binary
import Signpost.Decimal.Reading
import Signpost.Decimal.Shortest
import Signpost.Demo
import Signpost.Endpoint.Callable
import Signpost.Endpoint.Context
import Signpost.Endpoint.Failure
import Signpost.Endpoint.Signature
import Signpost.Http.Header
import Signpost.Http.Message
import Signpost.Http.Multipart
import Signpost.Http.Reason
import Signpost.Http.Request
import Signpost.Http.Response
import Signpost.Http.Token
import Signpost.Http.Urlencoded
import Signpost.Json.Cursor
import Signpost.Json.Printer
import Signpost.Json.Reader
import Signpost.Json.Scalar
import Signpost.Json.Value
import Signpost.Main
import Signpost.Pattern.Atom
import Signpost.Pattern.Bracket
import Signpost.Pattern.Syntax
import Signpost.Pipeline.Dispatch
import Signpost.Pipeline.Duration
import Signpost.Pipeline.Hooks
import Signpost.Pipeline.Metrics
import Signpost.Pipeline.Record
import Signpost.Pipeline.Registry
import Signpost.Pipeline.Service
import Signpost.Pipeline.Tracing
import Signpost.Pipeline.Validation
import Signpost.Program.CommandLine
import Signpost.Program.Logging
import Signpost.Program.Run
import Signpost.Program.Settings
import Signpost.Proofs.Binding.Captures
import Signpost.Proofs.Binding.Carried
import Signpost.Proofs.Binding.Declared
import Signpost.Proofs.Binding.Decode
import Signpost.Proofs.Binding.Fields
import Signpost.Proofs.Binding.Populate
import Signpost.Proofs.Binding.Precedence
import Signpost.Proofs.Binding.Problems
import Signpost.Proofs.Binding.Rebound
import Signpost.Proofs.Endpoint.Code
import Signpost.Proofs.Endpoint.Convention
import Signpost.Proofs.Endpoint.Wrapped
import Signpost.Proofs.Http.Builder
import Signpost.Proofs.Http.Delimiter
import Signpost.Proofs.Http.Disposition
import Signpost.Proofs.Http.Form
import Signpost.Proofs.Http.Head
import Signpost.Proofs.Http.Multipart
import Signpost.Proofs.Http.Truncation
import Signpost.Proofs.Http.Upload
import Signpost.Proofs.Http.Urlencoded
import Signpost.Proofs.Http.Values
import Signpost.Proofs.Json.Fields
import Signpost.Proofs.Json.Reading
import Signpost.Proofs.Json.RoundTrip
import Signpost.Proofs.Json.Scalars
import Signpost.Proofs.Pipeline.Counting
import Signpost.Proofs.Pipeline.Course
import Signpost.Proofs.Pipeline.Dispatch
import Signpost.Proofs.Pipeline.Invocation
import Signpost.Proofs.Pipeline.Population
import Signpost.Proofs.Pipeline.PresentError
import Signpost.Proofs.Pipeline.Registration
import Signpost.Proofs.Pipeline.Rendering
import Signpost.Proofs.Pipeline.Reporting
import Signpost.Proofs.Pipeline.ResponseHeaders
import Signpost.Proofs.Pipeline.ServerName
import Signpost.Proofs.Pipeline.Visit
import Signpost.Proofs.Route.Branches
import Signpost.Proofs.Route.Catalog
import Signpost.Proofs.Route.Clients
import Signpost.Proofs.Route.Composed
import Signpost.Proofs.Route.Families
import Signpost.Proofs.Route.Latest
import Signpost.Proofs.Route.Ledger
import Signpost.Proofs.Route.Listing
import Signpost.Proofs.Route.Lookup
import Signpost.Proofs.Route.Marked
import Signpost.Proofs.Route.Partition
import Signpost.Proofs.Route.Path
import Signpost.Proofs.Route.Reach
import Signpost.Proofs.Route.Removal
import Signpost.Proofs.Route.RequestKey
import Signpost.Proofs.Route.Restoration
import Signpost.Proofs.Route.Spelling
import Signpost.Proofs.Route.Target
import Signpost.Proofs.Route.Tree
import Signpost.Proofs.Route.Verb
import Signpost.Proofs.Route.Walk
import Signpost.Proofs.Route.Written
import Signpost.Proofs.Text.Boundaries
import Signpost.Proofs.Text.Cuts
import Signpost.Proofs.Text.Order
import Signpost.Proofs.Text.Pieces
import Signpost.Proofs.Text.Trim
import Signpost.Proofs.Text.Utf8
import Signpost.RequestId
import Signpost.Route.Key
import Signpost.Route.Name
import Signpost.Route.Named
import Signpost.Route.Node
import Signpost.Route.Path
import Signpost.Route.Table
import Signpost.Text.Alphanumeric
import Signpost.Text.Blank
import Signpost.Text.Lowercase
import Signpost.Text.Pieces
import Signpost.Text.Quoted
import Signpost.Text.Unprintable
import Signpost.Text.Utf8
