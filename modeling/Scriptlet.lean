import Scriptlet.Expr.Source
import Scriptlet.Main
import Scriptlet.Proofs.Grammar.Statement
import Scriptlet.Proofs.Parser.Reading
import Scriptlet.Proofs.Parser.ExpressionReading
import Scriptlet.Proofs.Parser.StatementReading
import Scriptlet.Proofs.Evaluation.Admission
import Scriptlet.Proofs.Grammar.Placement
import Scriptlet.Proofs.Evaluation.Placement
import Scriptlet.Proofs.Parser.Acceptance
import Scriptlet.Proofs.Parser.ExpressionAcceptance
import Scriptlet.Proofs.Session.Placement
import Scriptlet.Proofs.Parser.StatementAcceptance
import Scriptlet.Proofs.Grammar.WriteBack
import Scriptlet.Proofs.Parser.Exactness
import Scriptlet.Proofs.Decimal.Bits
import Scriptlet.Proofs.Decimal.Numeral
import Scriptlet.Proofs.Text.Cut
import Scriptlet.Proofs.Token.Again
import Scriptlet.Proofs.Token.Writing
import Scriptlet.Proofs.Token.Literal
import Scriptlet.Proofs.Grammar.Lines
import Scriptlet.Proofs.Grammar.Provenance
import Scriptlet.Proofs.Grammar.Rewrite
import Scriptlet.Proofs.Grammar.SourceText
import Scriptlet.Proofs.Parser.SourceRoundTrip
import Scriptlet.Proofs.Grammar.StatementLines
import Scriptlet.Proofs.Evaluation.Lockstep
import Scriptlet.Proofs.Evaluation.StateLines
import Scriptlet.Proofs.Evaluation.Copy
import Scriptlet.Proofs.Evaluation.Lines
import Scriptlet.Proofs.Token.LineEnd
import Scriptlet.Proofs.Token.Joined
import Scriptlet.Proofs.Session.Joined
import Scriptlet.Proofs.Session.Transcript
import Scriptlet.Proofs.CommandLine.Input
import Scriptlet.Proofs.CommandLine.Agreement
import Scriptlet.Proofs.Evaluation.Recorded
import Scriptlet.Proofs.Evaluation.Compositional
import Scriptlet.Proofs.Evaluation.CallDepth
import Scriptlet.Proofs.Evaluation.CallLimit
import Scriptlet.Proofs.Evaluation.OutputLimit
import Scriptlet.Proofs.Evaluation.LoopFree
import Scriptlet.Proofs.Session.LoopFree
import Scriptlet.Proofs.Token.LexicalGrammar
import Scriptlet.Proofs.Token.LongestMatch
import Scriptlet.Proofs.Token.Tokenization
import Scriptlet.Proofs.Scope.Chain
import Scriptlet.Proofs.Scope.History
import Scriptlet.Proofs.Session.Reports
import Scriptlet.Proofs.Grammar.StatementProvenance
import Scriptlet.Proofs.Evaluation.ErrorTokens
import Scriptlet.Proofs.Session.ErrorTokens
import Scriptlet.Proofs.Evaluation.Operators
import Scriptlet.Proofs.Evaluation.Correspondence
import Scriptlet.Proofs.Scope.Reachability
import Scriptlet.Proofs.Evaluation.Simulation
import Scriptlet.Proofs.Evaluation.Locality
import Scriptlet.Proofs.Grammar.Declarations
import Scriptlet.Proofs.Scope.Discipline
import Scriptlet.Proofs.CommandLine.ExitStatus
import Scriptlet.Proofs.Token.Layout
import Scriptlet.Proofs.Parser.Lines
import Scriptlet.Proofs.Parser.ProgramLines
import Scriptlet.Proofs.Session.Layout
import Scriptlet.Proofs.Evaluation.Evolution
import Scriptlet.Proofs.Evaluation.Pairing
import Scriptlet.Proofs.Evaluation.CountingLoop
import Scriptlet.Proofs.Token.LineNumbers
import Scriptlet.Proofs.Grammar.Relaxed
import Scriptlet.Proofs.Grammar.Kinds
import Scriptlet.Proofs.Grammar.Semicolons
import Scriptlet.Proofs.Parser.Unrolling
import Scriptlet.Proofs.Parser.Recursion
import Scriptlet.Proofs.Parser.Prediction
import Scriptlet.Proofs.Parser.PredictionRules
import Scriptlet.Proofs.Parser.Recognition
import Scriptlet.Proofs.Parser.ExpressionPrediction
import Scriptlet.Proofs.Parser.StatementPrediction
import Scriptlet.Proofs.Parser.Program
import Scriptlet.Proofs.Parser.FirstFailure
import Scriptlet.Proofs.Parser.Containment
import Scriptlet.Proofs.Parser.Recovery
import Scriptlet.Proofs.Outline.Text
import Scriptlet.Proofs.Outline.Expression
import Scriptlet.Proofs.Outline.Statement
import Scriptlet.Proofs.Outline.Program
import Scriptlet.Proofs.Parser.Cursor
import Scriptlet.Proofs.Parser.Completion
import Scriptlet.Proofs.Parser.Progress
