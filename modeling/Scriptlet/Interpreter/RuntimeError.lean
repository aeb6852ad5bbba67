import Scriptlet.Diagnostic
import Scriptlet.Value.Operator

/-!
# Runtime errors

What ends the evaluation of a program, and the token that it is reported at.
-/

namespace Scriptlet

/-- The ways in which evaluation fails, each with the token it fails at. -/
inductive RuntimeError where
  | undefinedVariable (name : Name)
  | operator (token : Token) (error : OperatorError)
  | notCallable (paren : Token.OfKind .rightParen)
  | arityMismatch (paren : Token.OfKind .rightParen) (expected found : Nat)
  | stackOverflow (paren : Token.OfKind .rightParen)
  | sleepDurationNotNumber (keyword : Token.OfKind .sleepWord)
  | output (keyword : Token.OfKind .printWord) (cause : String)
  deriving DecidableEq

namespace RuntimeError

/-- The token that the error is reported at. -/
def token : RuntimeError → Token
  | .undefinedVariable name => name.token
  | .operator token _ => token
  | .notCallable paren | .arityMismatch paren _ _ | .stackOverflow paren => paren.token
  | .sleepDurationNotNumber keyword => keyword.token
  | .output keyword _ => keyword.token

/-- What a runtime error is reported as. -/
def message : RuntimeError → String
  | .undefinedVariable name => "Undefined variable '" ++ name.lexeme ++ "'."
  | .operator _ error => error.message
  | .notCallable _ => "Can only call functions."
  | .arityMismatch _ expected found =>
      "Expected " ++ expected.repr ++ " arguments but got " ++ found.repr ++ "."
  | .stackOverflow _ => "Stack overflow."
  | .sleepDurationNotNumber _ => "Sleep duration must be a number."
  | .output _ cause => "Failed to write output: " ++ cause

/-- The report of a runtime error. -/
def diagnostic (error : RuntimeError) : Diagnostic :=
  .ofToken .runtime error.token error.message

end RuntimeError

end Scriptlet
