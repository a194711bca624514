import Calculator.Main
import Calculator.Shell.Highlight
import Calculator.Proofs.Diagnostics.Insertion
import Calculator.Proofs.Grammar.Phrase
import Calculator.Proofs.Parser.Calculus
import Calculator.Proofs.Parser.Soundness
import Calculator.Proofs.Grammar.Statement
import Calculator.Proofs.Environment.Binding
import Calculator.Proofs.Grammar.Shape
import Calculator.Proofs.Environment.Effect
import Calculator.Proofs.Parser.Completeness
import Calculator.Proofs.Grammar.Acceptance
import Calculator.Proofs.Token.Spelling
import Calculator.Proofs.Grammar.FunctionBody
import Calculator.Proofs.Binary64.Rounding
import Calculator.Proofs.Binary64.Decimal
import Calculator.Proofs.Token.Number
import Calculator.Proofs.Expr.Written
import Calculator.Proofs.Grammar.Printing
import Calculator.Proofs.Parser.Steps
import Calculator.Proofs.Environment.Persistence
import Calculator.Proofs.Parser.Limit
import Calculator.Proofs.Grammar.Depth
import Calculator.Proofs.Grammar.Interpretation
import Calculator.Proofs.Grammar.RoundTrip
import Calculator.Proofs.Environment.History
import Calculator.Proofs.Expr.Nodes
import Calculator.Proofs.Grammar.Trees
import Calculator.Proofs.Environment.Functions
import Calculator.Proofs.Expr.Recursion
import Calculator.Proofs.Environment.CallChains
import Calculator.Proofs.Parser.Diagnosis
import Calculator.Proofs.Token.LongestMatch
import Calculator.Proofs.Token.Placement
import Calculator.Proofs.Parser.Correspondence
import Calculator.Proofs.Environment.Locality
import Calculator.Proofs.Environment.Workspaces
import Calculator.Proofs.Token.Respacing
import Calculator.Proofs.Parser.Alignment
import Calculator.Proofs.Environment.Rejection
import Calculator.Proofs.Parser.Location
import Calculator.Proofs.Binary64.Nearest
import Calculator.Proofs.Binary64.Shown
import Calculator.Proofs.Binary64.ShownText
import Calculator.Proofs.Grammar.ShownResult
import Calculator.Proofs.Shell.Headline
import Calculator.Proofs.Shell.Transcript
import Calculator.Proofs.Shell.Agreement
import Calculator.Proofs.Grammar.Factorials
import Calculator.Proofs.Token.Transcription
import Calculator.Proofs.Token.LexicalFaults
import Calculator.Proofs.Binary64.CorrectRounding
import Calculator.Proofs.Token.LiteralValue
import Calculator.Proofs.Parser.Cursor
import Calculator.Proofs.Parser.Arrival
import Calculator.Proofs.Parser.Lookahead
import Calculator.Proofs.Parser.Endings
import Calculator.Proofs.Shell.PointedLines
import Calculator.Proofs.Shell.Highlighting
import Calculator.Proofs.Binary64.Numeral
import Calculator.Proofs.Binary64.ShownNumeral
