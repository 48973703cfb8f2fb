import ProductSegments.Catalog.Basic
import ProductSegments.Catalog.Reader
import ProductSegments.Decimal.Basic
import ProductSegments.Decimal.Numeral
import ProductSegments.Double.Basic
import ProductSegments.Double.OfDigits
import ProductSegments.Double.Rounding
import ProductSegments.Double.Shortest
import ProductSegments.Instant.Basic
import ProductSegments.Instant.Rfc3339
import ProductSegments.Json.Basic
import ProductSegments.Json.Number
import ProductSegments.Json.Reader
import ProductSegments.Json.Text
import ProductSegments.Keyed.Basic
import ProductSegments.Keyed.Lemmas
import ProductSegments.Log
import ProductSegments.Main
import ProductSegments.Operator
import ProductSegments.Predicate.Basic
import ProductSegments.Product.Basic
import ProductSegments.Proofs.Catalog.Rewriting
import ProductSegments.Proofs.Catalog.Roundtrip
import ProductSegments.Proofs.Decimal.Grammar
import ProductSegments.Proofs.Decimal.Layout
import ProductSegments.Proofs.Decimal.Numeral
import ProductSegments.Proofs.Decimal.Positional
import ProductSegments.Proofs.Double.Nearest
import ProductSegments.Proofs.Double.Neighbours
import ProductSegments.Proofs.Double.Order
import ProductSegments.Proofs.Double.Reading
import ProductSegments.Proofs.Instant.Rfc3339
import ProductSegments.Proofs.Json.Number
import ProductSegments.Proofs.Json.Roundtrip
import ProductSegments.Proofs.Json.Strings
import ProductSegments.Proofs.Keyed.LastWins
import ProductSegments.Proofs.Keyed.Repeats
import ProductSegments.Proofs.Outcome
import ProductSegments.Proofs.Predicate.Fold
import ProductSegments.Proofs.Predicate.Refolding
import ProductSegments.Proofs.Predicate.Replacement
import ProductSegments.Proofs.Predicate.Reports
import ProductSegments.Proofs.Product.Members
import ProductSegments.Proofs.Product.Quantities
import ProductSegments.Proofs.Product.Typing
import ProductSegments.Proofs.Query.Reading
import ProductSegments.Proofs.Query.Recovery
import ProductSegments.Proofs.Rule.Coercion
import ProductSegments.Proofs.Rule.Compilation
import ProductSegments.Proofs.Rule.Display
import ProductSegments.Proofs.Rule.Grammar
import ProductSegments.Proofs.Rule.Joining
import ProductSegments.Proofs.Rule.Layout
import ProductSegments.Proofs.Rule.Lines
import ProductSegments.Proofs.Rule.Numbers
import ProductSegments.Proofs.Rule.Operators
import ProductSegments.Proofs.Rule.Rearranging
import ProductSegments.Proofs.Rule.Rejection
import ProductSegments.Proofs.Rule.Spacing
import ProductSegments.Proofs.Rule.Tokenizing
import ProductSegments.Proofs.Rule.Tokens
import ProductSegments.Proofs.Rule.Widening
import ProductSegments.Proofs.Rule.Writing
import ProductSegments.Proofs.Schema.Declarations
import ProductSegments.Proofs.Schema.Entries
import ProductSegments.Proofs.Schema.Fields
import ProductSegments.Proofs.Segment.Evaluation
import ProductSegments.Proofs.Segment.Events
import ProductSegments.Proofs.Segment.Narrowing
import ProductSegments.Proofs.Segment.Operators
import ProductSegments.Proofs.Segment.Selection
import ProductSegments.Proofs.Segment.Thresholds
import ProductSegments.Proofs.Session.Insertions
import ProductSegments.Proofs.Session.Replay
import ProductSegments.Proofs.Text.ByteOrder
import ProductSegments.Proofs.Text.Span
import ProductSegments.Proofs.Text.Trim
import ProductSegments.Proofs.Value.Order
import ProductSegments.Proofs.Value.Relation
import ProductSegments.Query.Document
import ProductSegments.Rule.Check
import ProductSegments.Rule.Compile
import ProductSegments.Rule.Error
import ProductSegments.Rule.Tokens
import ProductSegments.Sample.Report
import ProductSegments.Schema.Basic
import ProductSegments.Schema.Declaration
import ProductSegments.Schema.Document
import ProductSegments.Schema.Entry
import ProductSegments.Segment.Evaluate
import ProductSegments.Segment.Result
import ProductSegments.Session.Run
import ProductSegments.Session.Step
import ProductSegments.Store.Basic
import ProductSegments.Text.Basic
import ProductSegments.Toml.Reader
import ProductSegments.Toml.Scalar
import ProductSegments.Toml.Table
import ProductSegments.Value
