import DeclarativeOptions.Approvals
import DeclarativeOptions.Check
import DeclarativeOptions.Command
import DeclarativeOptions.Command.Arguments
import DeclarativeOptions.Cursor
import DeclarativeOptions.EvalError
import DeclarativeOptions.Evaluation
import DeclarativeOptions.Evaluation.Traced
import DeclarativeOptions.Expr
import DeclarativeOptions.Fields
import DeclarativeOptions.Json
import DeclarativeOptions.Json.Number
import DeclarativeOptions.Json.Printer
import DeclarativeOptions.Json.Reader
import DeclarativeOptions.Json.Token
import DeclarativeOptions.Layout
import DeclarativeOptions.Listing
import DeclarativeOptions.Main
import DeclarativeOptions.Number.Basic
import DeclarativeOptions.Number.Decimal
import DeclarativeOptions.Number.Numeral
import DeclarativeOptions.Number.Rounding
import DeclarativeOptions.Number.Shortest
import DeclarativeOptions.Number.Style
import DeclarativeOptions.Outline
import DeclarativeOptions.Parser
import DeclarativeOptions.Parser.State
import DeclarativeOptions.Proofs.Check
import DeclarativeOptions.Proofs.Cursor.Afresh
import DeclarativeOptions.Proofs.Cursor.Descent
import DeclarativeOptions.Proofs.Cursor.Records
import DeclarativeOptions.Proofs.Cursor.Supplied
import DeclarativeOptions.Proofs.Evaluation.Approving
import DeclarativeOptions.Proofs.Evaluation.Chains
import DeclarativeOptions.Proofs.Evaluation.Indexing
import DeclarativeOptions.Proofs.Evaluation.Invariant
import DeclarativeOptions.Proofs.Evaluation.Lookup
import DeclarativeOptions.Proofs.Evaluation.NumericName
import DeclarativeOptions.Proofs.Evaluation.Order
import DeclarativeOptions.Proofs.Evaluation.Parts
import DeclarativeOptions.Proofs.Evaluation.Reading
import DeclarativeOptions.Proofs.Evaluation.Release
import DeclarativeOptions.Proofs.Evaluation.Traced
import DeclarativeOptions.Proofs.Evaluation.Visibility
import DeclarativeOptions.Proofs.Fields
import DeclarativeOptions.Proofs.Grammar
import DeclarativeOptions.Proofs.Grammar.Unambiguity
import DeclarativeOptions.Proofs.Json.Conversion
import DeclarativeOptions.Proofs.Number.Hexadecimal
import DeclarativeOptions.Proofs.Number.Key
import DeclarativeOptions.Proofs.Number.Nearest
import DeclarativeOptions.Proofs.Number.RoundTrip
import DeclarativeOptions.Proofs.Number.Rounding
import DeclarativeOptions.Proofs.Number.Shortest
import DeclarativeOptions.Proofs.Number.Spelling
import DeclarativeOptions.Proofs.Parser.Acceptance
import DeclarativeOptions.Proofs.Parser.Demand
import DeclarativeOptions.Proofs.Parser.Expectation
import DeclarativeOptions.Proofs.Parser.Path
import DeclarativeOptions.Proofs.Parser.Run
import DeclarativeOptions.Proofs.Parser.Spacing
import DeclarativeOptions.Proofs.Parser.ViablePrefix
import DeclarativeOptions.Proofs.Parser.WellFormed
import DeclarativeOptions.Proofs.Session.Approval
import DeclarativeOptions.Proofs.Text.Longest
import DeclarativeOptions.Proofs.Text.Units
import DeclarativeOptions.Proofs.Token.Content
import DeclarativeOptions.Proofs.Token.Escaped
import DeclarativeOptions.Proofs.Token.Leading
import DeclarativeOptions.Proofs.Token.Lexeme
import DeclarativeOptions.Proofs.Token.LongestNumber
import DeclarativeOptions.Proofs.Token.Lookahead
import DeclarativeOptions.Proofs.Token.NameSpelling
import DeclarativeOptions.Proofs.Token.NumberKey
import DeclarativeOptions.Proofs.Token.NumberLiteral
import DeclarativeOptions.Proofs.Token.Quoted
import DeclarativeOptions.Proofs.Token.Significant
import DeclarativeOptions.Proofs.Token.Spacing
import DeclarativeOptions.Proofs.Token.StringElements
import DeclarativeOptions.Proofs.Token.Tiling
import DeclarativeOptions.Proofs.Value.Data
import DeclarativeOptions.Proofs.Value.Object
import DeclarativeOptions.Proofs.Value.RoundTrip
import DeclarativeOptions.Property
import DeclarativeOptions.Scope
import DeclarativeOptions.Session
import DeclarativeOptions.SyntaxError
import DeclarativeOptions.Text.CharClass
import DeclarativeOptions.Text.Quoted
import DeclarativeOptions.Text.Ranges
import DeclarativeOptions.Text.Ranges.Alphabetic
import DeclarativeOptions.Text.Ranges.GraphemeExtend
import DeclarativeOptions.Text.Ranges.Numeric
import DeclarativeOptions.Text.Ranges.Unprintable
import DeclarativeOptions.Text.Units
import DeclarativeOptions.Token
import DeclarativeOptions.Token.Escape
import DeclarativeOptions.Token.Name
import DeclarativeOptions.Token.NumberLiteral
import DeclarativeOptions.Token.Scan
import DeclarativeOptions.Token.StringLiteral
import DeclarativeOptions.Value
import DeclarativeOptions.Value.Literal
