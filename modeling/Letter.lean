import Letter.Error
import Letter.Grammar.Descent
import Letter.Grammar.Expression
import Letter.Grammar.Production
import Letter.Grammar.Program
import Letter.Grammar.Statement
import Letter.Json.Basic
import Letter.Number.Decimal
import Letter.Number.Double
import Letter.Proofs.Descent.Following
import Letter.Proofs.Descent.Procedure
import Letter.Proofs.Descent.Simulation
import Letter.Proofs.Grammar.Acceptance
import Letter.Proofs.Grammar.Blame
import Letter.Proofs.Grammar.Completeness
import Letter.Proofs.Grammar.Concatenation
import Letter.Proofs.Grammar.Derivation
import Letter.Proofs.Grammar.Exactness
import Letter.Proofs.Grammar.Faults
import Letter.Proofs.Grammar.Foreseen
import Letter.Proofs.Grammar.Height
import Letter.Proofs.Grammar.Interruption
import Letter.Proofs.Grammar.Judgement
import Letter.Proofs.Grammar.Language
import Letter.Proofs.Grammar.Layout
import Letter.Proofs.Grammar.Limit
import Letter.Proofs.Grammar.Literal
import Letter.Proofs.Grammar.Nesting
import Letter.Proofs.Grammar.Precedence
import Letter.Proofs.Grammar.Prefix
import Letter.Proofs.Grammar.Printing
import Letter.Proofs.Grammar.Report
import Letter.Proofs.Grammar.Sentence
import Letter.Proofs.Grammar.Shape
import Letter.Proofs.Grammar.Soundness
import Letter.Proofs.Grammar.Spacing
import Letter.Proofs.Grammar.Wrapping
import Letter.Proofs.Journal.Basic
import Letter.Proofs.Journal.Progress
import Letter.Proofs.Journal.Run
import Letter.Proofs.Journal.Tracking
import Letter.Proofs.Json.Grammar
import Letter.Proofs.Json.Reader
import Letter.Proofs.Json.Writing
import Letter.Proofs.Machine.Basic
import Letter.Proofs.Machine.Budget
import Letter.Proofs.Machine.Checked
import Letter.Proofs.Machine.Run
import Letter.Proofs.Machine.Safety
import Letter.Proofs.Machine.Simulation
import Letter.Proofs.Number.Nearest
import Letter.Proofs.Number.Notation
import Letter.Proofs.Number.Numeral
import Letter.Proofs.Number.Recovery
import Letter.Proofs.Number.Shortest
import Letter.Proofs.Number.Whole
import Letter.Proofs.Production.Agreement
import Letter.Proofs.Production.Bounding
import Letter.Proofs.Production.Congruence
import Letter.Proofs.Production.Consuming
import Letter.Proofs.Production.Deepening
import Letter.Proofs.Production.Reading
import Letter.Proofs.Production.Recursion
import Letter.Proofs.Production.Sparing
import Letter.Proofs.Production.Steady
import Letter.Proofs.Text.Character
import Letter.Proofs.Text.Place
import Letter.Proofs.Text.Position
import Letter.Proofs.Token.Bookmark
import Letter.Proofs.Token.Enclosing
import Letter.Proofs.Token.Genuine
import Letter.Proofs.Token.Joining
import Letter.Proofs.Token.Lexeme
import Letter.Proofs.Token.Longest
import Letter.Proofs.Token.Marks
import Letter.Proofs.Token.Matching
import Letter.Proofs.Token.Scanning
import Letter.Proofs.Token.Stream
import Letter.Proofs.Token.Tiling
import Letter.Proofs.Token.Unreadable
import Letter.Proofs.Token.Words
import Letter.Proofs.Tree.Height
import Letter.Proofs.Tree.Numbers
import Letter.Proofs.Tree.Precedence
import Letter.Proofs.Tree.Rebuild
import Letter.Proofs.Tree.RoundTrip
import Letter.Proofs.Tree.WellFormed
import Letter.Text.Blank
import Letter.Text.Position
import Letter.Text.Ranges
import Letter.Text.Spelled
import Letter.Text.WordCharacter
import Letter.Token.Basic
import Letter.Token.Kind
import Letter.Token.Pattern
import Letter.Token.Rule
import Letter.Token.Scan
import Letter.Token.Tokenizer
import Letter.Tree.Expression
import Letter.Tree.Json
import Letter.Tree.Operator
import Letter.Tree.Statement
