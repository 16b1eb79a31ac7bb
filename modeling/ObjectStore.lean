import ObjectStore.Bson
import ObjectStore.Bson.Codec
import ObjectStore.Bson.Decimal128
import ObjectStore.Calendar.Date
import ObjectStore.Calendar.Instant
import ObjectStore.Calendar.Text
import ObjectStore.Calendar.TimeOfDay
import ObjectStore.Column
import ObjectStore.Connection
import ObjectStore.Database
import ObjectStore.DateStrategy
import ObjectStore.Documents.Changes
import ObjectStore.Documents.Command
import ObjectStore.Documents.ConnectionString
import ObjectStore.Documents.Filter
import ObjectStore.Documents.Options
import ObjectStore.Documents.ServerError
import ObjectStore.Documents.Session
import ObjectStore.ExtendedJson
import ObjectStore.Failure
import ObjectStore.Json
import ObjectStore.Json.Printer
import ObjectStore.Json.Reader
import ObjectStore.Memory.Select
import ObjectStore.Memory.Store
import ObjectStore.Number.Decimal
import ObjectStore.Number.DecimalText
import ObjectStore.Number.Double
import ObjectStore.Number.DoubleReader
import ObjectStore.Number.Power
import ObjectStore.Number.Shortest
import ObjectStore.Object
import ObjectStore.OrderedMap
import ObjectStore.Predicate
import ObjectStore.Predicate.Evaluate
import ObjectStore.Proofs.Arithmetic
import ObjectStore.Proofs.Bson.Codec
import ObjectStore.Proofs.Bson.Decimal128
import ObjectStore.Proofs.Calendar.Date
import ObjectStore.Proofs.Calendar.Text
import ObjectStore.Proofs.Column
import ObjectStore.Proofs.Counter
import ObjectStore.Proofs.Documents.Changes
import ObjectStore.Proofs.Documents.Dialogue
import ObjectStore.Proofs.Documents.Filter
import ObjectStore.Proofs.Documents.Insertion
import ObjectStore.Proofs.Documents.Matching
import ObjectStore.Proofs.Documents.Names
import ObjectStore.Proofs.Documents.Paths
import ObjectStore.Proofs.Documents.PinnedIds
import ObjectStore.Proofs.Documents.Search
import ObjectStore.Proofs.Documents.Upsert
import ObjectStore.Proofs.ExtendedJson
import ObjectStore.Proofs.ExtendedJson.Containment
import ObjectStore.Proofs.ExtendedJson.Instants
import ObjectStore.Proofs.ExtendedJson.Untagged
import ObjectStore.Proofs.FieldByField
import ObjectStore.Proofs.Identifier
import ObjectStore.Proofs.Memory.Action
import ObjectStore.Proofs.Memory.Contention
import ObjectStore.Proofs.Memory.Effects
import ObjectStore.Proofs.Memory.FixedIds
import ObjectStore.Proofs.Memory.Identifiers
import ObjectStore.Proofs.Memory.Kept
import ObjectStore.Proofs.Memory.Operations
import ObjectStore.Proofs.Memory.Reachable
import ObjectStore.Proofs.Memory.Records
import ObjectStore.Proofs.Memory.Results
import ObjectStore.Proofs.Memory.Saved
import ObjectStore.Proofs.Memory.Select
import ObjectStore.Proofs.Memory.Sorting
import ObjectStore.Proofs.Memory.Stamps
import ObjectStore.Proofs.Memory.Transactions
import ObjectStore.Proofs.Memory.Upserts
import ObjectStore.Proofs.Memory.Writes
import ObjectStore.Proofs.NullOrder
import ObjectStore.Proofs.Number.Decimal
import ObjectStore.Proofs.Number.DecimalText
import ObjectStore.Proofs.Number.Double
import ObjectStore.Proofs.Number.Power
import ObjectStore.Proofs.Object
import ObjectStore.Proofs.Object.Views
import ObjectStore.Proofs.Object.Visible
import ObjectStore.Proofs.OrderedMap
import ObjectStore.Proofs.Paging
import ObjectStore.Proofs.Predicate
import ObjectStore.Proofs.Predicate.Comparison
import ObjectStore.Proofs.Predicate.Keys
import ObjectStore.Proofs.Predicate.TextPattern
import ObjectStore.Proofs.Relational.Bracketing
import ObjectStore.Proofs.Relational.Catalog
import ObjectStore.Proofs.Relational.Contest
import ObjectStore.Proofs.Relational.Course
import ObjectStore.Proofs.Relational.Dialogue
import ObjectStore.Proofs.Relational.Elements
import ObjectStore.Proofs.Relational.Filter
import ObjectStore.Proofs.Relational.Lexemes
import ObjectStore.Proofs.Relational.Lexer
import ObjectStore.Proofs.Relational.Like
import ObjectStore.Proofs.Relational.Listing
import ObjectStore.Proofs.Relational.Operators
import ObjectStore.Proofs.Relational.Patterns
import ObjectStore.Proofs.Relational.Preservation
import ObjectStore.Proofs.Relational.Reading
import ObjectStore.Proofs.Relational.Rounds
import ObjectStore.Proofs.Relational.Schema
import ObjectStore.Proofs.Relational.Sending
import ObjectStore.Proofs.Relational.SoleWriter
import ObjectStore.Proofs.Relational.Truth
import ObjectStore.Proofs.Relational.Widening
import ObjectStore.Proofs.Relational.Wording
import ObjectStore.Proofs.Retry
import ObjectStore.Proofs.Retry.Races
import ObjectStore.Proofs.Script
import ObjectStore.Proofs.Sources
import ObjectStore.Proofs.Text.Base64
import ObjectStore.Proofs.Text.Numeral
import ObjectStore.Proofs.Text.Percent
import ObjectStore.Proofs.Update
import ObjectStore.Proofs.Value.Comparison
import ObjectStore.Proofs.Value.Equality
import ObjectStore.Proofs.Value.Hash
import ObjectStore.Proofs.Value.Induction
import ObjectStore.Proofs.Value.Loose
import ObjectStore.Proofs.Value.Numbers
import ObjectStore.Proofs.Value.Order
import ObjectStore.Query
import ObjectStore.Relational.Assignment
import ObjectStore.Relational.Condition
import ObjectStore.Relational.Query
import ObjectStore.Relational.Row
import ObjectStore.Relational.Schema
import ObjectStore.Relational.ServerError
import ObjectStore.Relational.Session
import ObjectStore.Relational.Statement
import ObjectStore.Relational.Table
import ObjectStore.Relational.Type
import ObjectStore.Retry
import ObjectStore.Script
import ObjectStore.Sources
import ObjectStore.Text.Base64
import ObjectStore.Text.Numeral
import ObjectStore.Text.Percent
import ObjectStore.Text.Split
import ObjectStore.Text.Visible
import ObjectStore.Update
import ObjectStore.Update.Spelling
import ObjectStore.Value
import ObjectStore.Value.Hash
import ObjectStore.Value.Order
import ObjectStore.Wire.Bson
import ObjectStore.Wire.Failure
import ObjectStore.Wire.Form
import ObjectStore.Wire.Query
import ObjectStore.Wire.Value
