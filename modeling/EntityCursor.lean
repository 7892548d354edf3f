import EntityCursor.Base64
import EntityCursor.Binary64.Basic
import EntityCursor.Binary64.Decimal
import EntityCursor.Chain.Basic
import EntityCursor.Chain.Operator
import EntityCursor.Chain.Plan
import EntityCursor.Chain.Policy
import EntityCursor.Channel.Basic
import EntityCursor.Channel.TableEngine
import EntityCursor.Command.Arguments
import EntityCursor.Command.Basic
import EntityCursor.Command.Config
import EntityCursor.Cursor.Basic
import EntityCursor.Cursor.Request
import EntityCursor.Cursor.Script
import EntityCursor.Cursor.Stream
import EntityCursor.Descriptor.Basic
import EntityCursor.Descriptor.Json
import EntityCursor.Descriptor.Loading
import EntityCursor.Descriptor.Materialize
import EntityCursor.Descriptor.Registry
import EntityCursor.Expr.Basic
import EntityCursor.Expr.Evaluate
import EntityCursor.Expr.Json
import EntityCursor.Expr.Like
import EntityCursor.Expr.Regex
import EntityCursor.Failure
import EntityCursor.Fields
import EntityCursor.Files
import EntityCursor.Filter.Document
import EntityCursor.Filter.Restriction
import EntityCursor.Identifier
import EntityCursor.Journal.Basic
import EntityCursor.Journal.Metrics
import EntityCursor.Journal.Scope
import EntityCursor.Journal.Severity
import EntityCursor.Json.Basic
import EntityCursor.Json.Numeral
import EntityCursor.Json.Printer
import EntityCursor.Json.Source
import EntityCursor.Json.Tagged
import EntityCursor.Main
import EntityCursor.Moment.Basic
import EntityCursor.Moment.Calendar
import EntityCursor.Moment.Text
import EntityCursor.Pipeline.Puller
import EntityCursor.Pipeline.Stage
import EntityCursor.Query.Basic
import EntityCursor.Query.Json
import EntityCursor.Text
import EntityCursor.Value.Basic
import EntityCursor.Value.Kind
import EntityCursor.Value.Order
import EntityCursor.Proofs.Chain.Split
import EntityCursor.Proofs.Channel.Execution
import EntityCursor.Proofs.Channel.TableEngine
import EntityCursor.Proofs.Cursor.Answer
import EntityCursor.Proofs.Cursor.Building
import EntityCursor.Proofs.Cursor.Discipline
import EntityCursor.Proofs.Cursor.Pushdown
import EntityCursor.Proofs.Cursor.Session
import EntityCursor.Proofs.Cursor.Simulation
import EntityCursor.Proofs.Descriptor.Rows
import EntityCursor.Proofs.Expr.Regex
import EntityCursor.Proofs.Expr.Like
import EntityCursor.Proofs.Expr.Narrowing
import EntityCursor.Proofs.Expr.TypedComparison
import EntityCursor.Proofs.Fields
import EntityCursor.Proofs.Outcome
import EntityCursor.Proofs.Pipeline.Columns
import EntityCursor.Proofs.Pipeline.Course
import EntityCursor.Proofs.Pipeline.Footprint
import EntityCursor.Proofs.Pipeline.Refinement
import EntityCursor.Proofs.Pipeline.Whole
import EntityCursor.Proofs.Value.Size
import EntityCursor.Proofs.Descriptor.Merging
import EntityCursor.Proofs.Filter.Paths
import EntityCursor.Proofs.Filter.NestedFields
import EntityCursor.Proofs.Descriptor.Conformity
import EntityCursor.Proofs.Cursor.Fidelity
import EntityCursor.Proofs.Channel.Isolation
import EntityCursor.Proofs.Expr.Patterns
import EntityCursor.Proofs.Filter.Meaning
import EntityCursor.Proofs.Descriptor.References
import EntityCursor.Proofs.Pipeline.Failures
import EntityCursor.Proofs.Filter.Refusals
import EntityCursor.Proofs.Cursor.Defects
import EntityCursor.Proofs.Base64
import EntityCursor.Proofs.Text
import EntityCursor.Proofs.Moment.Calendar
import EntityCursor.Proofs.Moment.Text
import EntityCursor.Proofs.Binary64
import EntityCursor.Proofs.Value.Json
import EntityCursor.Proofs.Descriptor.Rereading
import EntityCursor.Proofs.Expr.Json
import EntityCursor.Proofs.Query.Json
import EntityCursor.Proofs.Chain.Grants
import EntityCursor.Proofs.Chain.Longest
import EntityCursor.Proofs.Cursor.Planned
import EntityCursor.Proofs.Cursor.Agreement
import EntityCursor.Proofs.Cursor.Shortcut
import EntityCursor.Proofs.Descriptor.Validity
import EntityCursor.Proofs.Cursor.Lifecycle
import EntityCursor.Proofs.Value.Order
import EntityCursor.Proofs.Value.Comparison
import EntityCursor.Proofs.Cursor.Accounting
import EntityCursor.Proofs.Json
import EntityCursor.Proofs.Filter.Grammar
import EntityCursor.Proofs.Filter.Equality
import EntityCursor.Proofs.Descriptor.Undeclared
import EntityCursor.Proofs.Descriptor.Acceptance
import EntityCursor.Proofs.Descriptor.PartialMerge
import EntityCursor.Proofs.Expr.Dependence
import EntityCursor.Proofs.Sorting
import EntityCursor.Proofs.Query.SortKey
import EntityCursor.Proofs.Pipeline.Sorting
import EntityCursor.Proofs.Pipeline.Extremes
import EntityCursor.Proofs.Cursor.Unfolding
import EntityCursor.Proofs.Cursor.Extremes
import EntityCursor.Proofs.Json.Source
import EntityCursor.Proofs.Journal.Line
import EntityCursor.Proofs.Chain.SortCounter
import EntityCursor.Proofs.Descriptor.Json
import EntityCursor.Proofs.Descriptor.Loading
import EntityCursor.Proofs.Moment.Order
