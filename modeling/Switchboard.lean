import Switchboard.Text.Class
import Switchboard.Text.Case
import Switchboard.Decimal.Shortest
import Switchboard.Decimal.Numeral
import Switchboard.Json.Text
import Switchboard.Json.Reader
import Switchboard.Expression.Cache
import Switchboard.Path
import Switchboard.Formula.Template
import Switchboard.Calendar.Reader
import Switchboard.Configuration.Writer
import Switchboard.Main
import Switchboard.Proofs.Expression.Grammar
import Switchboard.Proofs.Expression.Steps
import Switchboard.Proofs.Expression.Completeness
import Switchboard.Proofs.Expression.Soundness
import Switchboard.Proofs.Expression.Acceptance
import Switchboard.Proofs.Decimal.Integers
import Switchboard.Proofs.Decimal.Digits
import Switchboard.Proofs.Expression.Trees
import Switchboard.Proofs.Expression.Holding
import Switchboard.Proofs.Expression.Substitution
import Switchboard.Proofs.Expression.Scanning
import Switchboard.Proofs.Expression.Printing
import Switchboard.Proofs.Expression.Caching
import Switchboard.Proofs.Execution.Calls
import Switchboard.Proofs.Execution.Plan
import Switchboard.Proofs.Execution.Sequential
import Switchboard.Proofs.Effect
import Switchboard.Proofs.Execution.Trail
import Switchboard.Proofs.Execution.Abreast
import Switchboard.Proofs.Execution.History
import Switchboard.Proofs.Execution.Moments
import Switchboard.Proofs.Execution.Turns
import Switchboard.Proofs.Execution.Trailed
import Switchboard.Proofs.Execution.Provenance
import Switchboard.Proofs.Execution.Fresh
import Switchboard.Proofs.Execution.Uncached
import Switchboard.Proofs.Execution.Verdict
import Switchboard.Proofs.Aggregation.Failures
import Switchboard.Proofs.Execution.Linked
import Switchboard.Proofs.Execution.Calm
import Switchboard.Proofs.Execution.Outcome
import Switchboard.Proofs.Execution.Reports
import Switchboard.Proofs.Execution.Results
import Switchboard.Proofs.Execution.Chain
import Switchboard.Proofs.Execution.Parallel
import Switchboard.Proofs.Execution.Accounting
import Switchboard.Proofs.Transform.Session
import Switchboard.Proofs.Execution.Sinks
import Switchboard.Proofs.Expiring.Use
import Switchboard.Proofs.Expiring.Eviction
import Switchboard.Proofs.Path.Slots
import Switchboard.Proofs.Json.Ordered
import Switchboard.Proofs.Json.Places
import Switchboard.Proofs.Path.Writes
import Switchboard.Proofs.Rule.Steps
import Switchboard.Proofs.Rule.Independent
import Switchboard.Proofs.Rule.Ordered
import Switchboard.Proofs.Rule.Silent
import Switchboard.Proofs.Path.Lens
import Switchboard.Proofs.Expression.Dotted
import Switchboard.Proofs.Configuration.Valid
import Switchboard.Proofs.Transform.Parsed
import Switchboard.Proofs.Execution.Applied
import Switchboard.Proofs.Execution.Accepted
import Switchboard.Proofs.Path.Frame
import Switchboard.Proofs.Aggregation.Deep
import Switchboard.Proofs.Aggregation.Union
import Switchboard.Proofs.Aggregation.Attribution
import Switchboard.Proofs.Aggregation.Concatenation
import Switchboard.Proofs.Aggregation.Duplicates
import Switchboard.Proofs.Aggregation.Flat
import Switchboard.Proofs.Expression.Height
import Switchboard.Proofs.Formula.Reading
import Switchboard.Proofs.Formula.Alphabet
import Switchboard.Proofs.Formula.Template
import Switchboard.Proofs.Execution.Keys
import Switchboard.Proofs.Request.Query
import Switchboard.Proofs.Expression.Renaming
import Switchboard.Proofs.Expression.Literals
import Switchboard.Proofs.Expression.Sorting
import Switchboard.Proofs.Expression.Lexemes
import Switchboard.Proofs.Path.Spelling
import Switchboard.Proofs.Rule.Dates
import Switchboard.Proofs.Execution.Codes
