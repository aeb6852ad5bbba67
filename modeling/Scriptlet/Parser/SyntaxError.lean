import Scriptlet.Diagnostic

/-!
# Syntax errors

What can be wrong with a sequence of tokens, at which token it shows, and how it is worded.
-/

namespace Scriptlet

namespace SyntaxError

/-- Where a symbol is missing. -/
inductive Place where
  | afterWord (text : String)
  | afterIfCondition
  | afterWhileCondition
  | afterLoopCondition
  | afterForClauses
  | afterVariableDeclaration
  | afterFunctionName
  | afterParameters
  | beforeFunctionBody
  | afterArguments
  | afterReturnValue
  | afterSleepDuration
  | afterPrintedValue
  | afterExpressionStatement
  | afterGrouping
  | afterBlock
  deriving DecidableEq, Repr

/-- How a place is told. -/
def Place.phrase : Place → String
  | .afterWord text => "after '" ++ text ++ "'"
  | .afterIfCondition => "after if condition"
  | .afterWhileCondition => "after condition"
  | .afterLoopCondition => "after loop condition"
  | .afterForClauses => "after for clauses"
  | .afterVariableDeclaration => "after variable declaration"
  | .afterFunctionName => "after function name"
  | .afterParameters => "after parameters"
  | .beforeFunctionBody => "before function body"
  | .afterArguments => "after arguments"
  | .afterReturnValue => "after return value"
  | .afterSleepDuration => "after sleep duration"
  | .afterPrintedValue => "after value"
  | .afterExpressionStatement => "after expression"
  | .afterGrouping => "after expression"
  | .afterBlock => "after block"

/-- What a missing name would have named. -/
inductive Role where
  | variable
  | function
  | parameter
  deriving DecidableEq, Repr

/-- How a role is told. -/
def Role.phrase : Role → String
  | .variable => "variable"
  | .function => "function"
  | .parameter => "parameter"

/-- What is wrong. -/
inductive Cause where
  | missingExpression
  | missingName (role : Role)
  | missingSymbol (kind : Token.Kind) (place : Place)
  | tooManyParameters
  | tooManyArguments
  | invalidAssignmentTarget
  | jumpOutsideLoop (word : String)
  | returnOutsideFunction
  deriving DecidableEq, Repr

/-- What a syntax error is reported as. -/
def Cause.message : Cause → String
  | .missingExpression => "Expect expression."
  | .missingName role => "Expect " ++ role.phrase ++ " name."
  | .missingSymbol kind place =>
      "Expect '" ++ kind.spelling?.getD "" ++ "' " ++ place.phrase ++ "."
  | .tooManyParameters => "Can't have more than 255 parameters."
  | .tooManyArguments => "Can't have more than 255 arguments."
  | .invalidAssignmentTarget => "Invalid assignment target."
  | .jumpOutsideLoop word => "Can't use '" ++ word ++ "' outside of a loop."
  | .returnOutsideFunction => "Can't return from top-level code."

end SyntaxError

/-- A fault in a sequence of tokens. It shows at a token, or at the end of input. -/
structure SyntaxError where
  cause : SyntaxError.Cause
  token : Option Token
  deriving DecidableEq

namespace SyntaxError

/-- The token that the error is reported at, given the token for the end of input. -/
def tokenOr (error : SyntaxError) (last : Token) : Token :=
  error.token.getD last

/-- The diagnostic for a syntax error, given the token for the end of input. -/
def diagnostic (last : Token) (error : SyntaxError) : Diagnostic :=
  .ofToken .static (error.tokenOr last) error.cause.message

end SyntaxError

end Scriptlet
