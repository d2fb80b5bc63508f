import TextScript.Decimal.Shortest
import TextScript.Decimal.Style
import TextScript.Eval
import TextScript.Expr.Basic
import TextScript.Expr.Operator
import TextScript.Failure.Basic
import TextScript.Failure.Code
import TextScript.Failure.Suggestion
import TextScript.Failure.Template
import TextScript.Files.Path
import TextScript.Files.Tree
import TextScript.Format.Directive
import TextScript.Format.Render
import TextScript.HostBoundary
import TextScript.HostEngine
import TextScript.Literal.Balance
import TextScript.Literal.Escape
import TextScript.Literal.Interpolation
import TextScript.Literal.Quote
import TextScript.Log.Captured
import TextScript.Log.Line
import TextScript.Log.Sink
import TextScript.Method.Arity
import TextScript.Method.Table
import TextScript.Method.Texts
import TextScript.Numeral
import TextScript.Position
import TextScript.Program.Parser
import TextScript.Program.Source
import TextScript.Proofs.Alike
import TextScript.Proofs.Arguments
import TextScript.Proofs.Arities
import TextScript.Proofs.Assignments
import TextScript.Proofs.Balance
import TextScript.Proofs.BlockBodies
import TextScript.Proofs.BlockModes
import TextScript.Proofs.Brackets
import TextScript.Proofs.ByteOrder
import TextScript.Proofs.CapturedOutput
import TextScript.Proofs.Comments
import TextScript.Proofs.Covering
import TextScript.Proofs.DepthLimit
import TextScript.Proofs.Descent
import TextScript.Proofs.DescentStack
import TextScript.Proofs.Digits
import TextScript.Proofs.Dispatch
import TextScript.Proofs.EditDistance
import TextScript.Proofs.Enumeration
import TextScript.Proofs.Escapes
import TextScript.Proofs.Evaluation
import TextScript.Proofs.FailingSteps
import TextScript.Proofs.FailurePlaces
import TextScript.Proofs.Fallbacks
import TextScript.Proofs.Following
import TextScript.Proofs.HostValues
import TextScript.Proofs.InContext
import TextScript.Proofs.Indexing
import TextScript.Proofs.JoinedTexts
import TextScript.Proofs.Joining
import TextScript.Proofs.Layout
import TextScript.Proofs.Levels
import TextScript.Proofs.Limits
import TextScript.Proofs.Listing
import TextScript.Proofs.Literals
import TextScript.Proofs.Lookahead
import TextScript.Proofs.Markup
import TextScript.Proofs.Moves
import TextScript.Proofs.Nesting
import TextScript.Proofs.NodePlaces
import TextScript.Proofs.Numerals
import TextScript.Proofs.Occurrences
import TextScript.Proofs.Operands
import TextScript.Proofs.OutputBound
import TextScript.Proofs.Placeholders
import TextScript.Proofs.Places
import TextScript.Proofs.PlainValues
import TextScript.Proofs.Precedence
import TextScript.Proofs.Programs
import TextScript.Proofs.Quoting
import TextScript.Proofs.Ranges
import TextScript.Proofs.Rendering
import TextScript.Proofs.RoundTrip
import TextScript.Proofs.ScopeChains
import TextScript.Proofs.Segments
import TextScript.Proofs.Sessions
import TextScript.Proofs.Skipping
import TextScript.Proofs.Sources
import TextScript.Proofs.Spans
import TextScript.Proofs.Spelling
import TextScript.Proofs.Suggestions
import TextScript.Proofs.Templates
import TextScript.Proofs.Termination
import TextScript.Proofs.TextOrder
import TextScript.Proofs.Tokens
import TextScript.Proofs.Trees
import TextScript.Proofs.Unlimited
import TextScript.Proofs.Unplaced
import TextScript.Proofs.WellFormed
import TextScript.Proofs.Widths
import TextScript.Proofs.Words
import TextScript.Proofs.WrittenForm
import TextScript.Providers.Document
import TextScript.Providers.Entries
import TextScript.Providers.FullCase
import TextScript.Providers.HostCode.Run
import TextScript.Providers.HostCode.Syntax
import TextScript.Providers.HostCode.Typing
import TextScript.Scope
import TextScript.Session
import TextScript.Settings.Basic
import TextScript.Settings.Load
import TextScript.Settings.Placeholder
import TextScript.Text.Basic
import TextScript.Text.Builder
import TextScript.Text.Case
import TextScript.Text.Category
import TextScript.Text.Markup
import TextScript.Text.Range
import TextScript.Text.Search
import TextScript.Text.Words
import TextScript.Token.Basic
import TextScript.Token.Cursor
import TextScript.Token.Lexer
import TextScript.Trace
import TextScript.Unicode.Blank
import TextScript.Unicode.CaseMap
import TextScript.Unicode.Cased
import TextScript.Unicode.Digit
import TextScript.Unicode.Letter
import TextScript.Unicode.Printable
import TextScript.Unicode.Ranges
import TextScript.Unicode.Script
import TextScript.Utf8
import TextScript.Value.Basic
import TextScript.Value.Capability
import TextScript.Value.Shown
