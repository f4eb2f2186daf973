import Formula.Bindings
import Formula.Bindings.Argument
import Formula.Code
import Formula.Code.Compiler
import Formula.Code.Instruction
import Formula.Code.Machine
import Formula.Code.SymbolTable
import Formula.CommandLine
import Formula.CommandLine.Arguments
import Formula.Complaint
import Formula.Complaint.Told
import Formula.Decimal
import Formula.Decimal.Layout
import Formula.Decimal.Numeral
import Formula.Decimal.Shortest
import Formula.Double
import Formula.Double.Arithmetic
import Formula.Double.Rounding
import Formula.Evaluation
import Formula.Expr
import Formula.Expr.Outline
import Formula.Expr.Parser
import Formula.Expr.Source
import Formula.Expr.Text
import Formula.Expression
import Formula.Host
import Formula.Main
import Formula.Outline
import Formula.Proofs.Bindings.Building
import Formula.Proofs.Bindings.Lookup
import Formula.Proofs.Bindings.Maps
import Formula.Proofs.Bindings.Naming
import Formula.Proofs.Code.Agreement
import Formula.Proofs.Code.Emission
import Formula.Proofs.Code.Flow
import Formula.Proofs.Code.Fragment
import Formula.Proofs.Code.Interning
import Formula.Proofs.Code.Numbering
import Formula.Proofs.Code.Operand
import Formula.Proofs.Code.Patching
import Formula.Proofs.Code.Placement
import Formula.Proofs.Code.Safety
import Formula.Proofs.Code.WellFormed
import Formula.Proofs.CommandLine.Runtimes
import Formula.Proofs.Decimal.Code
import Formula.Proofs.Decimal.Digits
import Formula.Proofs.Decimal.Layout
import Formula.Proofs.Decimal.Shortest
import Formula.Proofs.Decimal.Text
import Formula.Proofs.Double.Nearest
import Formula.Proofs.Double.Order
import Formula.Proofs.Double.Whole
import Formula.Proofs.Expr.Height
import Formula.Proofs.Expr.Induction
import Formula.Proofs.Expr.Layout
import Formula.Proofs.Expr.Leaves
import Formula.Proofs.Expr.Pieces
import Formula.Proofs.Expr.Reports
import Formula.Proofs.Expr.RoundTrip
import Formula.Proofs.Expr.Spacing
import Formula.Proofs.Expr.Tower
import Formula.Proofs.Expr.Unfinished
import Formula.Proofs.Expression.Names
import Formula.Proofs.Expression.Session
import Formula.Proofs.Offsets
import Formula.Proofs.Parser.Blame
import Formula.Proofs.Parser.Bookkeeping
import Formula.Proofs.Parser.Calls
import Formula.Proofs.Parser.Completeness
import Formula.Proofs.Parser.Congruence
import Formula.Proofs.Parser.Exactness
import Formula.Proofs.Parser.Faults
import Formula.Proofs.Parser.Grammar
import Formula.Proofs.Parser.Height
import Formula.Proofs.Parser.Lookahead
import Formula.Proofs.Parser.Reader
import Formula.Proofs.Parser.Soundness
import Formula.Proofs.Parser.Steps
import Formula.Proofs.Parser.Threshold
import Formula.Proofs.Parser.Tracks
import Formula.Proofs.Parser.Viable
import Formula.Proofs.Steps
import Formula.Proofs.SyntaxError.Carets
import Formula.Proofs.SyntaxError.Ranges
import Formula.Proofs.Text.Order
import Formula.Proofs.Text.Quoted
import Formula.Proofs.Text.Search
import Formula.Proofs.Text.Trim
import Formula.Proofs.Token.Cutting
import Formula.Proofs.Token.Layout
import Formula.Proofs.Token.Lexeme
import Formula.Proofs.Token.Lexical
import Formula.Proofs.Token.LongestMatch
import Formula.Proofs.Token.Quoted
import Formula.Proofs.Token.Reading
import Formula.Proofs.Token.Single
import Formula.Proofs.Token.Written
import Formula.Proofs.Value.Arithmetic
import Formula.Proofs.Value.Dict
import Formula.Proofs.Value.Division
import Formula.Proofs.Value.Equality
import Formula.Proofs.Value.Methods
import Formula.Proofs.Value.Mixed
import Formula.Proofs.Value.Order
import Formula.Proofs.Value.Repetition
import Formula.Proofs.Value.Same
import Formula.Proofs.Value.Searching
import Formula.Proofs.Value.Slices
import Formula.Proofs.Value.WellFormed
import Formula.Proofs.Value.WholeNumbers
import Formula.Proofs.Value.Written
import Formula.Proofs.Words
import Formula.Report
import Formula.Report.OneLine
import Formula.RuntimeError
import Formula.Span
import Formula.SyntaxError
import Formula.Text.Blank
import Formula.Text.Casing
import Formula.Text.Casing.Table
import Formula.Text.Fingerprint
import Formula.Text.Letter
import Formula.Text.Order
import Formula.Text.Quoted
import Formula.Text.Ranges
import Formula.Text.Search
import Formula.Text.Visible
import Formula.Text.Width
import Formula.Token
import Formula.Token.Lexer
import Formula.Value
import Formula.Value.Arithmetic
import Formula.Value.Conversion
import Formula.Value.Equality
import Formula.Value.Hosted
import Formula.Value.Method
import Formula.Value.Order
import Formula.Value.Sequence
import Formula.Value.Written
