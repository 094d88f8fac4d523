import Inquiry.Calendar
import Inquiry.Chart.Basic
import Inquiry.Chart.Drawing
import Inquiry.Chart.Names
import Inquiry.Chart.Obstacle
import Inquiry.Chart.Roles
import Inquiry.Chart.Tooltip
import Inquiry.Dates.Definitions
import Inquiry.Dates.Fields
import Inquiry.Dates.Healing
import Inquiry.Dates.Pipeline
import Inquiry.Decimal.BaseTen
import Inquiry.Decimal.Binary
import Inquiry.Decimal.Difference
import Inquiry.Decimal.Exact
import Inquiry.Decimal.Fixed
import Inquiry.Decimal.Integer
import Inquiry.Decimal.Nearest
import Inquiry.Decimal.Shortest
import Inquiry.Demo.Draws
import Inquiry.Demo.Seed
import Inquiry.Expression
import Inquiry.Fault
import Inquiry.Json.Printer
import Inquiry.Json.Reader
import Inquiry.Log
import Inquiry.Model.Basic
import Inquiry.Model.Provider
import Inquiry.Number
import Inquiry.Plan.Advice
import Inquiry.Plan.Basic
import Inquiry.Plan.Hint
import Inquiry.Plan.Keywords
import Inquiry.Plan.Prompt
import Inquiry.Plan.Resolution
import Inquiry.Plan.Shape
import Inquiry.Recommendation.Cache
import Inquiry.Recommendation.Clock
import Inquiry.Recommendation.Sweeper
import Inquiry.Proofs.Expression.Tree
import Inquiry.Reply.Balanced
import Inquiry.Reply.Extract
import Inquiry.Reply.Literals
import Inquiry.Rows.Path
import Inquiry.Rows.Plain
import Inquiry.Rows.Sequence
import Inquiry.Schema
import Inquiry.Server.Body
import Inquiry.Server.Encoding
import Inquiry.Server.Respond
import Inquiry.Server.Route
import Inquiry.Server.Wire
import Inquiry.Service.Answer
import Inquiry.Service.Compile
import Inquiry.Service.Render
import Inquiry.Settings
import Inquiry.Shape
import Inquiry.Store.Basic
import Inquiry.Store.Connection
import Inquiry.Store.Execution
import Inquiry.Store.Schemas
import Inquiry.Summary
import Inquiry.Text.Blank
import Inquiry.Text.Case
import Inquiry.Text.CaseTables
import Inquiry.Text.CodePoints
import Inquiry.Text.Digit
import Inquiry.Text.Printable
import Inquiry.Text.Quoted
import Inquiry.Text.Search
import Inquiry.Text.Utf8
import Inquiry.Trace
import Inquiry.Value.Basic
import Inquiry.Value.Difference
import Inquiry.Value.Display
import Inquiry.Value.Order
import Inquiry.Proofs.Dates.Conversion
import Inquiry.Proofs.Dates.Rewriting
import Inquiry.Proofs.Dates.NormalForm
import Inquiry.Proofs.Dates.Meaning
import Inquiry.Proofs.Expression.Induction
import Inquiry.Proofs.Expression.Canonical
import Inquiry.Proofs.Expression.Reading
import Inquiry.Proofs.Dates.Run
import Inquiry.Proofs.Dates.Idempotence
import Inquiry.Proofs.Expression.Places
import Inquiry.Proofs.Dates.Places
import Inquiry.Proofs.Dates.Reports
import Inquiry.Proofs.Dates.Composition
import Inquiry.Proofs.Dates.Nested
import Inquiry.Proofs.Json.Keys
import Inquiry.Proofs.Recommendation.Issued
import Inquiry.Proofs.Service.Replay
import Inquiry.Proofs.Service.Runs
import Inquiry.Proofs.Recommendation.Slots
import Inquiry.Proofs.Dates.FieldSets
import Inquiry.Proofs.Dates.Judgement
import Inquiry.Proofs.Dates.KeyOrder
import Inquiry.Proofs.Dates.Unconverted
import Inquiry.Proofs.Dates.Documents
import Inquiry.Proofs.Dates.HealedDates
import Inquiry.Proofs.Dates.HealedDefinitions
import Inquiry.Proofs.Dates.Growth
import Inquiry.Proofs.Expression.Payload
import Inquiry.Proofs.Dates.Opaque
import Inquiry.Proofs.Dates.Payloads
import Inquiry.Proofs.Dates.Sources
import Inquiry.Proofs.Dates.Histories
import Inquiry.Proofs.Decimal.Order
import Inquiry.Proofs.Decimal.Rounding
import Inquiry.Proofs.Decimal.Doubles
import Inquiry.Proofs.Decimal.Integers
import Inquiry.Proofs.Recommendation.Retrieval
import Inquiry.Proofs.Recommendation.Ages
import Inquiry.Proofs.Recommendation.Lifetime
import Inquiry.Proofs.Decimal.Digits
import Inquiry.Proofs.Decimal.Quotients
import Inquiry.Proofs.Decimal.Scientific
import Inquiry.Proofs.Decimal.Interval
import Inquiry.Proofs.Decimal.Shortest
import Inquiry.Proofs.Json.Strings
import Inquiry.Proofs.Json.Numbers
import Inquiry.Proofs.Json.Doubles
import Inquiry.Proofs.Json.RoundTrip
import Inquiry.Proofs.Json.Grammar
import Inquiry.Proofs.Reply.Balanced
import Inquiry.Proofs.Reply.Extract
import Inquiry.Proofs.Reply.Objects
import Inquiry.Proofs.Chart.Drawable
import Inquiry.Proofs.Chart.Roles
import Inquiry.Proofs.Dates.Written
import Inquiry.Proofs.Plan.Shaped
import Inquiry.Proofs.Value.Sorted
import Inquiry.Proofs.Value.Entries
import Inquiry.Proofs.Value.Documents
import Inquiry.Proofs.Plan.Shaping
import Inquiry.Proofs.Dates.Untouched
import Inquiry.Proofs.Plan.Keywords
import Inquiry.Proofs.Service.Compiled
import Inquiry.Proofs.Service.Checked
import Inquiry.Proofs.Service.Faults
import Inquiry.Proofs.Dates.Reached
import Inquiry.Proofs.Dates.FieldStatus
import Inquiry.Proofs.Dates.Fallbacks
import Inquiry.Proofs.Dates.Replaced
import Inquiry.Proofs.Dates.Branches
import Inquiry.Proofs.Expression.Offenders
import Inquiry.Proofs.Reply.FirstObject
import Inquiry.Proofs.Plan.Drawn
import Inquiry.Proofs.Json.Escapes
import Inquiry.Proofs.Reply.Substitution
import Inquiry.Proofs.Reply.ShellLiterals
import Inquiry.Proofs.Reply.ShellTrees
import Inquiry.Proofs.Recommendation.Uses
import Inquiry.Proofs.Recommendation.Accounts
import Inquiry.Proofs.Recommendation.Evictions
import Inquiry.Proofs.Chart.Hinted
import Inquiry.Proofs.Expression.Dotted
import Inquiry.Proofs.Dates.Dotted
import Inquiry.Proofs.Expression.Spelling
import Inquiry.Proofs.Dates.Scalars
import Inquiry.Proofs.Dates.Spelling
import Inquiry.Proofs.Text.Lowering
import Inquiry.Proofs.Plan.Advised
import Inquiry.Proofs.Decimal.Percent
import Inquiry.Proofs.Chart.Zooming
import Inquiry.Proofs.Text.Words
import Inquiry.Proofs.Chart.Names
import Inquiry.Proofs.Rows.Plain
import Inquiry.Proofs.Chart.RowOrder
