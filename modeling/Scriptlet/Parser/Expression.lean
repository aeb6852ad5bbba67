import Scriptlet.Expr.Basic
import Scriptlet.Parser.Basic

/-!
# Reading expressions

From loosest to tightest: assignment, `or`, `and`, equality, comparison, sums, products, operators
before an operand, calls, and primary expressions. All operators between two operands group to the
left, assignment groups to the right.

Each level takes the parser for the expressions nested in it. An expression that is nested in
another one starts after a token of the outer one, so the tokens left bound the nesting; with no
token left there is no expression.
-/

namespace Scriptlet.Parser

/-- The value of a token that is a literal. A literal token that carries no value stands for
`nil`. -/
def literalOf? (token : Token) : Option Literal :=
  match token.kind with
  | .falseWord | .trueWord | .nilWord | .number | .string => some (token.literal.getD .nil)
  | _ => none

/-- Reads a literal, a name, or an expression in parentheses. -/
def primary (nested : Parser Expr) : Parser Expr := do
  match ← accept literalOf? with
  | some value => pure (.literal value)
  | none =>
    match ← acceptKind .identifier with
    | some name => pure (.reference name)
    | none =>
      match ← acceptKind .leftParen with
      | some _ => do
          let inner ← nested
          let _ ← expectSymbol .rightParen .afterGrouping
          pure (.grouping inner)
      | none => fail .missingExpression

/-- Reads the arguments of a call after its opening parenthesis. -/
def finishCall (nested : Parser Expr) (callee : Expr) : Parser Expr := do
  let (arguments, paren) ← closedList .tooManyArguments .afterArguments nested
  pure (.call callee paren arguments)

/-- Reads an expression and the calls of its value. -/
def call (nested : Parser Expr) : Parser Expr := do
  let callee ← primary nested
  loop (fun callee => do
    match ← acceptKind .leftParen with
    | some _ => do pure (some (← finishCall nested callee))
    | none => pure none) callee

/-- The operators that stand in front of their operand. -/
def unaryOperators : List UnaryOperator := [.invert, .negate]

/-- Reads operators and their operand; the operator nearest to the operand applies first. -/
def unary (nested : Parser Expr) : Parser Expr := do
  let operators ← many (accept (Operator.of? UnaryOperator.kind · unaryOperators))
  let operand ← call nested
  pure (operators.foldr .unary operand)

/-- Reads operands with operators of one level between them. -/
def leftAssociative {ω : Type} (operator? : Token → Option ω) (join : Expr → ω → Expr → Expr)
    (operand : Parser Expr) : Parser Expr := do
  let first ← operand
  loop (fun left => do
    match ← accept operator? with
    | some operator => do pure (some (join left operator (← operand)))
    | none => pure none) first

/-- The levels of binary operators, the loosest first. -/
def binaryLevels : List (List BinaryOperator) := [
  [.notEqual, .equal],
  [.greater, .greaterEqual, .less, .lessEqual],
  [.subtract, .add],
  [.divide, .multiply]]

/-- Reads an expression of binary operators of the given levels. -/
def binary (operand : Parser Expr) : List (List BinaryOperator) → Parser Expr
  | [] => operand
  | operators :: tighter =>
      leftAssociative (Operator.of? BinaryOperator.kind · operators) .binary
        (binary operand tighter)

/-- Reads an expression of one logical operator. -/
def logical (operator : LogicalOperator) (operand : Parser Expr) : Parser Expr :=
  leftAssociative (Operator.of? LogicalOperator.kind · [operator]) .logical operand

/-- Reads an expression that is no assignment. -/
def disjunction (nested : Parser Expr) : Parser Expr :=
  logical .either (logical .both (binary (unary nested) binaryLevels))

/-- An assignment, made after its value was read. Only a name can be assigned to; anything else
before `=` is reported there, and the assigned value is dropped. -/
def assigned (target : Expr) (equals : Token.OfKind .equal) (value : Expr) : Parser Expr :=
  match target with
  | .reference name => pure (.assign name value)
  | _ => do
      report ⟨.invalidAssignmentTarget, some equals.token⟩
      pure target

/-- Reads an assignment or a tighter-bound expression. -/
def assignment (nested : Parser Expr) : Parser Expr := do
  let target ← disjunction nested
  match ← acceptKind .equal with
  | none => pure target
  | some equals => do
      let value ← nested
      assigned target equals value

/-- Reads an expression nested at most as deep as there are tokens in a list. -/
def expressionWithin : List Token → Parser Expr
  | [] => fail .missingExpression
  | _ :: bound => assignment (expressionWithin bound)

/-- Reads an expression. Nesting is bounded by the tokens that are left. -/
def expression : Parser Expr := fun state =>
  expressionWithin state.rest state

end Scriptlet.Parser
