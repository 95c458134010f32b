import Lox.Binary64.Arithmetic
import Lox.Binary64.Order
import Lox.Decimal.Layout
import Lox.Numeral
import Lox.Text.AsciiForm
import Lox.Text.Quoted
import Lox.Value
import Lox.Token.Basic
import Lox.Lexeme
import Lox.Scanner.Call
import Lox.Expr.Eval
import Lox.Expr.Print
import Lox.Reporter
import Lox.Session
import Lox.Proofs.Lexeme.Grammar
import Lox.Proofs.Lexeme.LongestMatch
import Lox.Proofs.Numeral.Plain
import Lox.Proofs.Lexeme.Piece
import Lox.Proofs.Lexeme.Meaning
import Lox.Proofs.Scanner.Laps
import Lox.Proofs.Scanner.Segmentation
import Lox.Proofs.Scanner.TokenStream
import Lox.Proofs.Lexeme.Split
import Lox.Proofs.Scanner.Outcome
import Lox.Proofs.Scanner.Lines
import Lox.Proofs.Lexeme.Slice
import Lox.Proofs.Expr.Rules
import Lox.Proofs.Expr.FirstFailure
import Lox.Proofs.Expr.Typing
import Lox.Proofs.Scanner.Reports
import Lox.Proofs.Lexeme.Continuation
import Lox.Proofs.Lexeme.Significant
import Lox.Proofs.Scanner.Touching
import Lox.Proofs.Lexeme.Trivia
import Lox.Proofs.Scanner.Separated
import Lox.Proofs.Lexeme.Lookahead
import Lox.Proofs.Scanner.Stability
import Lox.Proofs.Scanner.JoinedLines
import Lox.Proofs.Binary64.Nearest
import Lox.Proofs.Decimal.ReadBack
import Lox.Proofs.Decimal.Point
import Lox.Proofs.Decimal.NumberText
import Lox.Proofs.Expr.PrintedForm
import Lox.Proofs.Expr.Unambiguous
import Lox.Proofs.Expr.RoundTrip
import Lox.Proofs.Lexeme.Edits
import Lox.Proofs.Scanner.Edits
import Lox.Proofs.Scanner.History
import Lox.Proofs.Scanner.Resumption
import Lox.Proofs.Scanner.Cursor
import Lox.Proofs.Scanner.Places
import Lox.Proofs.Scanner.Completion
import Lox.Proofs.Scanner.Invariant
import Lox.Proofs.Scanner.Failure
import Lox.Proofs.Reporter.History
import Lox.Proofs.Session.Effects
import Lox.Proofs.Session.Verbose
import Lox.Proofs.Expr.Contexts
import Lox.Proofs.Expr.Malformed
import Lox.Proofs.Binary64.Exact
import Lox.Proofs.Numeral.DecimalText
import Lox.Proofs.Scanner.NumberTokens
import Lox.Proofs.Decimal.Optimal
import Lox.Proofs.Decimal.Notation
import Lox.Proofs.Decimal.Canonical
import Lox.Proofs.Binary64.Comparison
import Lox.Proofs.Binary64.Division
import Lox.Proofs.Expr.Equality
import Lox.Proofs.Expr.Ordering
import Lox.Proofs.Scanner.PrintedNumbers
import Lox.Proofs.Scanner.Dump
import Lox.Proofs.Scanner.Skip
