import OData.Batch
import OData.Batch.Definition
import OData.Batch.Request
import OData.Batch.Response
import OData.Client
import OData.CommandLine.Arguments
import OData.CommandLine.Options
import OData.CommandLine.Run
import OData.Csv
import OData.Double
import OData.Double.Reader
import OData.Double.Shortest
import OData.Duration
import OData.EntityKey
import OData.EnvFile
import OData.Exchange
import OData.Exchange.Target
import OData.Expansion
import OData.Failure
import OData.Filter
import OData.Filter.Compile
import OData.FunctionCall
import OData.Guid
import OData.Headers
import OData.Instant
import OData.Json
import OData.Json.Number
import OData.Json.Reader
import OData.Json.Writer
import OData.Literal
import OData.Literal.Tagged
import OData.Main
import OData.Monitor
import OData.Multipart
import OData.NameMap
import OData.OpenEntity
import OData.Operation
import OData.Operation.Result
import OData.Page
import OData.Query
import OData.Query.Draft
import OData.Retry
import OData.ServiceRoot
import OData.Session
import OData.Settings
import OData.Settings.Reader
import OData.Shape
import OData.SortKey
import OData.Text.Blank
import OData.Text.Casing
import OData.Text.Digits
import OData.Text.Escaped
import OData.Text.Percent
import OData.Text.Quoted
import OData.Text.Split
import OData.Text.Styled
import OData.Text.Visible
import OData.Toml
import OData.Toml.Quoted
import OData.Toml.Reader
import OData.Toml.Scalar
import OData.Proofs.Batch.Answer
import OData.Proofs.Batch.Attribution
import OData.Proofs.Batch.Consistency
import OData.Proofs.Batch.Correlation
import OData.Proofs.Batch.Delimiters
import OData.Proofs.Batch.Encoding
import OData.Proofs.Batch.Formats
import OData.Proofs.Batch.Order
import OData.Proofs.Batch.Parts
import OData.Proofs.Batch.Success
import OData.Proofs.Client.Headers
import OData.Proofs.Client.Paging
import OData.Proofs.CommandLine.Exit
import OData.Proofs.CommandLine.Pages
import OData.Proofs.Csv.Table
import OData.Proofs.Double.Rounding
import OData.Proofs.Double.Shortest
import OData.Proofs.FilterText.Acceptance
import OData.Proofs.FilterText.Captures
import OData.Proofs.FilterText.Closed
import OData.Proofs.FilterText.Ends
import OData.Proofs.FilterText.Evaluation
import OData.Proofs.FilterText.Grouping
import OData.Proofs.FilterText.Literals
import OData.Proofs.FilterText.Reader
import OData.Proofs.FilterText.Reads
import OData.Proofs.FilterText.Structure
import OData.Proofs.FilterText.Tokens
import OData.Proofs.FilterText.Written
import OData.Proofs.Json.Normal
import OData.Proofs.Json.Numbers
import OData.Proofs.Json.RoundTrip
import OData.Proofs.Literal.Integers
import OData.Proofs.Literal.Lists
import OData.Proofs.Monitor.Lifecycle
import OData.Proofs.Monitor.Records
import OData.Proofs.Monitor.Waiting
import OData.Proofs.Multipart.Disjoint
import OData.Proofs.Multipart.Head
import OData.Proofs.Multipart.Pieces
import OData.Proofs.Multipart.Portions
import OData.Proofs.Multipart.Sections
import OData.Proofs.OpenEntity.Properties
import OData.Proofs.Query.Calls
import OData.Proofs.Query.Predicates
import OData.Proofs.Retry.Attempts
import OData.Proofs.Shape.Reading
import OData.Proofs.SortKey.RoundTrip
import OData.Proofs.Text.Balance
import OData.Proofs.Text.Casing
import OData.Proofs.Text.Cutting
import OData.Proofs.Text.Digits
import OData.Proofs.Text.Elements
import OData.Proofs.Text.Nesting
import OData.Proofs.Text.Outside
import OData.Proofs.Text.Percent
import OData.Proofs.Url.Contents
import OData.Proofs.Url.Expansions
import OData.Proofs.Url.Marks
import OData.Proofs.Url.Parts
