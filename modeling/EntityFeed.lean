import EntityFeed.Binary64.Basic
import EntityFeed.Binary64.Layout
import EntityFeed.Binary64.Shortest
import EntityFeed.Connection
import EntityFeed.Disk.Basic
import EntityFeed.Disk.Path
import EntityFeed.Event.Basic
import EntityFeed.Event.Document
import EntityFeed.Failure
import EntityFeed.Feed.Background
import EntityFeed.Feed.Basic
import EntityFeed.Feed.Changes
import EntityFeed.Feed.Work
import EntityFeed.Impact.Basic
import EntityFeed.Impact.Discovery
import EntityFeed.Impact.Hit
import EntityFeed.Json.Basic
import EntityFeed.Json.Number
import EntityFeed.Json.Printer
import EntityFeed.Json.Reader
import EntityFeed.Json.Spelling
import EntityFeed.Misfit
import EntityFeed.Normalization
import EntityFeed.ObjectQuery
import EntityFeed.Pending.Batches
import EntityFeed.Pending.Database
import EntityFeed.Pending.MemorySet
import EntityFeed.Pending.Store
import EntityFeed.Pending.Table
import EntityFeed.Postgres.Column
import EntityFeed.Postgres.Integer
import EntityFeed.Postgres.Parameter
import EntityFeed.Postgres.Query
import EntityFeed.Postgres.Uuid
import EntityFeed.Proofs.Sql.Alias
import EntityFeed.Proofs.Sql.Meaning
import EntityFeed.Retry
import EntityFeed.Schema.Basic
import EntityFeed.Schema.Document
import EntityFeed.Schema.Flaw
import EntityFeed.Schema.Introspection
import EntityFeed.Schema.Loading
import EntityFeed.Settings.Basic
import EntityFeed.Settings.Files
import EntityFeed.Sql.Alias
import EntityFeed.Sql.Quote
import EntityFeed.Sql.Select
import EntityFeed.Sql.Statement
import EntityFeed.Text.Blank
import EntityFeed.Text.CodePoints
import EntityFeed.Text.Composition
import EntityFeed.Text.Hex
import EntityFeed.Text.Quotation
import EntityFeed.Text.Unprinted
import EntityFeed.Toml.Quoted
import EntityFeed.Toml.Reader
import EntityFeed.Toml.Scalar
import EntityFeed.Toml.Table
import EntityFeed.Url.Basic
import EntityFeed.Url.Domain.Basic
import EntityFeed.Url.Domain.Direction
import EntityFeed.Url.Domain.Joiner
import EntityFeed.Url.Domain.Label
import EntityFeed.Url.Domain.Mark
import EntityFeed.Url.Domain.Punycode
import EntityFeed.Url.Domain.Repertoire
import EntityFeed.Url.Encoding
import EntityFeed.Url.Host
import EntityFeed.Url.Reader
import EntityFeed.Proofs.Entity
import EntityFeed.Proofs.ObjectQuery.Target
import EntityFeed.Proofs.Sql.Scoping
import EntityFeed.Proofs.ObjectQuery.Scope
import EntityFeed.Proofs.Sql.Grouping
import EntityFeed.Proofs.ObjectQuery.Rows
import EntityFeed.Proofs.ObjectQuery.Entities
import EntityFeed.Proofs.Impact.Change
import EntityFeed.Proofs.Impact.Finding
import EntityFeed.Proofs.Impact.Search
import EntityFeed.Proofs.Impact.Climb
import EntityFeed.Proofs.Impact.Completeness
import EntityFeed.Proofs.Pending.Store
import EntityFeed.Proofs.Feed.Orderly
import EntityFeed.Proofs.Feed.World
import EntityFeed.Proofs.Feed.Survival
import EntityFeed.Proofs.Impact.Exactness
import EntityFeed.Sql.Builder
import EntityFeed.Proofs.Sql.Template
import EntityFeed.Proofs.Sql.Token
import EntityFeed.Proofs.Sql.Builder
import EntityFeed.Proofs.Impact.Sites
import EntityFeed.Proofs.Impact.Hits
import EntityFeed.Proofs.Sql.Lexing
import EntityFeed.Proofs.Sql.Wording
import EntityFeed.Proofs.Sql.Spelling
import EntityFeed.Proofs.Renaming
import EntityFeed.Proofs.Respelling
import EntityFeed.Proofs.Sql.Building
import EntityFeed.Proofs.Sql.Drawing
import EntityFeed.Proofs.Quoting
import EntityFeed.Proofs.Feed.Rebuilding
import EntityFeed.Proofs.Feed.Delivery
import EntityFeed.Proofs.Feed.Scheduling
import EntityFeed.Proofs.Feed.Coverage
import EntityFeed.Proofs.Pending.Ordered
import EntityFeed.Proofs.Pending.Sharing
import EntityFeed.Proofs.Aliasing
import EntityFeed.Proofs.Sql.Provenance
import EntityFeed.Proofs.ObjectQuery.Provenance
import EntityFeed.Proofs.Introspection.Tables
import EntityFeed.Proofs.Normalization.Clean
import EntityFeed.Proofs.Yield
import EntityFeed.Proofs.Introspection.Output
import EntityFeed.Proofs.Normalization.Columns
import EntityFeed.Proofs.Json.Sameness
import EntityFeed.Proofs.Introspection.Relevance
import EntityFeed.Proofs.Feed.Alone
import EntityFeed.Proofs.Feed.Verdict
import EntityFeed.Proofs.Feed.Receipt
import EntityFeed.Proofs.Json.Quotation
import EntityFeed.Proofs.Json.Printing
import EntityFeed.Proofs.Json.RoundTrip
import EntityFeed.Proofs.Json.Reading
import EntityFeed.Proofs.Record
import EntityFeed.Proofs.Schema.Writing
import EntityFeed.Proofs.Schema.Nesting
import EntityFeed.Proofs.Schema.RoundTrip
import EntityFeed.Proofs.Event.Reading
import EntityFeed.Proofs.Json.Values
import EntityFeed.Proofs.Normalization.Repeats
import EntityFeed.Proofs.Normalization.Leaves
import EntityFeed.Proofs.Binary64.Shortest
import EntityFeed.Proofs.Binary64.Layout
import EntityFeed.Proofs.Json.Legibility
import EntityFeed.Proofs.Normalization.Structural
import EntityFeed.Proofs.ObjectQuery.Numbering
import EntityFeed.Proofs.Impact.Union
import EntityFeed.Proofs.Text.Runs
import EntityFeed.Proofs.Text.Hex
import EntityFeed.Proofs.Text.Separation
import EntityFeed.Proofs.Text.Decimal
import EntityFeed.Proofs.Postgres.Integer
import EntityFeed.Proofs.Postgres.Uuid
import EntityFeed.Proofs.Retry
import EntityFeed.Proofs.Url.Credentials
import EntityFeed.Proofs.Connection
import EntityFeed.Proofs.Postgres.Key
import EntityFeed.Proofs.Event.Writing
import EntityFeed.Proofs.Event.RoundTrip
import EntityFeed.Proofs.Impact.Walk
import EntityFeed.Proofs.Impact.Ascent
