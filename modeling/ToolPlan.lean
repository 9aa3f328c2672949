import ToolPlan.Cli
import ToolPlan.Cli.Arguments
import ToolPlan.Entries
import ToolPlan.Json.Numeral
import ToolPlan.Json.Parser
import ToolPlan.Json.Printer
import ToolPlan.Main
import ToolPlan.Number
import ToolPlan.Number.Binary64
import ToolPlan.Number.Decimal
import ToolPlan.Number.Shortest
import ToolPlan.Number.Stepwise
import ToolPlan.Options.File
import ToolPlan.Plan
import ToolPlan.Plan.Analysis
import ToolPlan.Plan.Error
import ToolPlan.Plan.Grammar
import ToolPlan.Plan.Json
import ToolPlan.Proofs.Grammar.Blame
import ToolPlan.Proofs.Grammar.Calls
import ToolPlan.Proofs.Grammar.Complete
import ToolPlan.Proofs.Grammar.Cursor
import ToolPlan.Proofs.Grammar.Expressions
import ToolPlan.Proofs.Grammar.Extent
import ToolPlan.Proofs.Grammar.Follows
import ToolPlan.Proofs.Grammar.Listing
import ToolPlan.Proofs.Grammar.Operands
import ToolPlan.Proofs.Grammar.Places
import ToolPlan.Proofs.Grammar.Prediction
import ToolPlan.Proofs.Grammar.Range
import ToolPlan.Proofs.Grammar.Reach
import ToolPlan.Proofs.Grammar.Rules
import ToolPlan.Proofs.Grammar.Sound
import ToolPlan.Proofs.Grammar.Statements
import ToolPlan.Proofs.Number.Comparison
import ToolPlan.Proofs.Number.Literal
import ToolPlan.Proofs.Number.Nearest
import ToolPlan.Proofs.Number.Order
import ToolPlan.Proofs.Number.Rounding
import ToolPlan.Proofs.Number.Text
import ToolPlan.Proofs.Plan.Accepted
import ToolPlan.Proofs.Plan.Concatenation
import ToolPlan.Proofs.Plan.Height
import ToolPlan.Proofs.Plan.Literals
import ToolPlan.Proofs.Plan.Printer
import ToolPlan.Proofs.Plan.RoundTrip
import ToolPlan.Proofs.Resolve
import ToolPlan.Proofs.Run.Accounting
import ToolPlan.Proofs.Run.Ceiling
import ToolPlan.Proofs.Run.DryRun
import ToolPlan.Proofs.Run.Environment
import ToolPlan.Proofs.Run.Erasure
import ToolPlan.Proofs.Run.Foresight
import ToolPlan.Proofs.Run.Independence
import ToolPlan.Proofs.Run.Invocations
import ToolPlan.Proofs.Run.Limits
import ToolPlan.Proofs.Run.Order
import ToolPlan.Proofs.Run.Relation
import ToolPlan.Proofs.Run.Returning
import ToolPlan.Proofs.Run.Scoping
import ToolPlan.Proofs.Run.Steps
import ToolPlan.Proofs.Run.Unrolling
import ToolPlan.Proofs.Run.Variables
import ToolPlan.Proofs.Token.Apart
import ToolPlan.Proofs.Token.Lines
import ToolPlan.Proofs.Token.Quote
import ToolPlan.Proofs.Token.Rewriting
import ToolPlan.Proofs.Token.Segments
import ToolPlan.Proofs.Token.Spelling
import ToolPlan.Proofs.Token.Standalone
import ToolPlan.Proofs.Token.Words
import ToolPlan.Proofs.Value.Equality
import ToolPlan.Proofs.Value.Ordering
import ToolPlan.Resolve
import ToolPlan.Run
import ToolPlan.Run.Budget
import ToolPlan.Run.Environment
import ToolPlan.Run.Journal
import ToolPlan.Run.Machine
import ToolPlan.Text
import ToolPlan.Text.Alphabetic
import ToolPlan.Text.Controls
import ToolPlan.Text.Numeric
import ToolPlan.Text.Quoted
import ToolPlan.Token
import ToolPlan.Token.Lexeme
import ToolPlan.Token.Scan
import ToolPlan.Toml
import ToolPlan.Toml.Document
import ToolPlan.Toml.Scalar
import ToolPlan.Toml.Table
import ToolPlan.Tool
import ToolPlan.Tool.Registry
import ToolPlan.Value
