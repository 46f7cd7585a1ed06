import DocQuery.Error
import DocQuery.Event
import DocQuery.Json.Basic
import DocQuery.Json.Order
import DocQuery.Json.Printer
import DocQuery.Json.Reader
import DocQuery.Number.Basic
import DocQuery.Number.Binary64
import DocQuery.Number.Numeral
import DocQuery.Number.Scaled
import DocQuery.Number.Shortest
import DocQuery.Operation.Basic
import DocQuery.Operation.Decode
import DocQuery.Options
import DocQuery.Path.Basic
import DocQuery.Path.Condition
import DocQuery.Path.Error
import DocQuery.Path.Identifier
import DocQuery.Path.Operand
import DocQuery.Path.Parser
import DocQuery.Path.Printer
import DocQuery.Path.Quoted
import DocQuery.Path.Reading
import DocQuery.Pipeline
import DocQuery.Predicate
import DocQuery.Projection
import DocQuery.Proofs.Json.Fields
import DocQuery.Proofs.Json.WellFormed
import DocQuery.Proofs.Path.Acceptance
import DocQuery.Proofs.Path.Canonical
import DocQuery.Proofs.Path.Condition
import DocQuery.Proofs.Path.Depth
import DocQuery.Proofs.Path.Grammar
import DocQuery.Proofs.Path.Lexical
import DocQuery.Proofs.Path.Operand
import DocQuery.Proofs.Path.RoundTrip
import DocQuery.Proofs.Projection.Elements
import DocQuery.Proofs.Projection.Embedding
import DocQuery.Proofs.Projection.Fitting
import DocQuery.Proofs.Projection.Idempotence
import DocQuery.Proofs.Projection.Rebuild
import DocQuery.Proofs.Projection.Selection
import DocQuery.Proofs.Projection.Settled
import DocQuery.Proofs.Query.Compiled
import DocQuery.Proofs.Query.Composition
import DocQuery.Proofs.Query.Descriptors
import DocQuery.Proofs.Query.Extraction
import DocQuery.Proofs.Query.Fusion
import DocQuery.Proofs.Query.Log
import DocQuery.Proofs.Query.Paging
import DocQuery.Proofs.Query.Reordering
import DocQuery.Proofs.Selection.DocumentOrder
import DocQuery.Proofs.Selection.Locations
import DocQuery.Proofs.Selection.Members
import DocQuery.Proofs.Selection.Reach
import DocQuery.Proofs.Selection.Value
import DocQuery.Proofs.Sorting.Chained
import DocQuery.Proofs.Sorting.Frame
import DocQuery.Proofs.Sorting.Nested
import DocQuery.Proofs.Sorting.Order
import DocQuery.Proofs.Sorting.Stable
import DocQuery.Proofs.Sorting.Ties
import DocQuery.Selection
import DocQuery.Shape
import DocQuery.Sorting
import DocQuery.Stage
import DocQuery.Text.Alphanumeric
import DocQuery.Text.Blank
import DocQuery.Text.CodePoint
import DocQuery.Text.Visible
import DocQuery.Proofs.Json.Equality
import DocQuery.Proofs.Predicate.Comparison
import DocQuery.Proofs.Predicate.Ordering
import DocQuery.Proofs.Query.Splitting
import DocQuery.Proofs.Path.Faults
import DocQuery.Proofs.Path.Joining
import DocQuery.Proofs.Path.Spacing
import DocQuery.Proofs.Path.Cursor
import DocQuery.Proofs.Path.InPlace
import DocQuery.Proofs.Path.Mirror
import DocQuery.Proofs.Path.Safety
import DocQuery.Proofs.Query.Description
import DocQuery.Proofs.Query.Sentinel
import DocQuery.Proofs.Path.Steady
import DocQuery.Proofs.Path.Nesting
import DocQuery.Proofs.Path.Balance
