import Propositional.Assignment
import Propositional.Calculator
import Propositional.Classification
import Propositional.CommandLine.Dialogue
import Propositional.CommandLine.Names
import Propositional.CommandLine.Program
import Propositional.CommandLine.Request
import Propositional.CommandLine.Service
import Propositional.CommandLine.Splitting
import Propositional.Connective
import Propositional.Enumeration
import Propositional.Failure
import Propositional.Formula.Basic
import Propositional.Formula.Display
import Propositional.Formula.Postorder
import Propositional.Grammar
import Propositional.Interpretation
import Propositional.Main
import Propositional.Reading
import Propositional.Session
import Propositional.Settings
import Propositional.Source
import Propositional.Table
import Propositional.Text.Blank
import Propositional.Text.Decimal
import Propositional.Token.Basic
import Propositional.Token.Layout
import Propositional.Token.Lexer
import Propositional.Variable
import Propositional.Variables
import Propositional.Proofs.ReadingInduction
import Propositional.Proofs.Derivability
import Propositional.Proofs.Unambiguity
import Propositional.Proofs.TrailingTokens
import Propositional.Proofs.Cursor
import Propositional.Proofs.Calls
import Propositional.Proofs.Returning
import Propositional.Proofs.Interpreting
import Propositional.Proofs.Evaluation
import Propositional.Proofs.Support
import Propositional.Proofs.Uses
import Propositional.Proofs.Recording
import Propositional.Proofs.Display
import Propositional.Proofs.InOrder
import Propositional.Proofs.Assignments
import Propositional.Proofs.Tabulation
import Propositional.Proofs.Classification
import Propositional.Proofs.Declaration
import Propositional.Proofs.Refusal
import Propositional.Proofs.Decomposition
import Propositional.Proofs.Lookahead
import Propositional.Proofs.Locality
import Propositional.Proofs.Viability
import Propositional.Proofs.Interruption
import Propositional.Proofs.Concatenation
import Propositional.Proofs.Continuation
import Propositional.Proofs.Lines
import Propositional.Proofs.Composition
import Propositional.Proofs.Presentation
import Propositional.Proofs.Inference
import Propositional.Proofs.WordEnumeration
import Propositional.Proofs.Halving
import Propositional.Proofs.Striding
import Propositional.Proofs.SessionBounds
import Propositional.Proofs.Truncation
import Propositional.Proofs.Conclusion
import Propositional.Proofs.Interview
import Propositional.Proofs.Lockstep
import Propositional.Proofs.Shapes
import Propositional.Proofs.Renaming
import Propositional.Proofs.Printing
import Propositional.Proofs.NameLists
