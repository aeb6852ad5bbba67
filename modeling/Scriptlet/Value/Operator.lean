import Scriptlet.Value.Basic

/-!
# Operators on values

What operators give, and the operands that they refuse.
-/

namespace Scriptlet

/-- Why an operator gives no value. -/
inductive OperatorError where
  | operandNotNumber
  | operandsNotNumbers
  | invalidOperands
  | divisionByZero
  deriving DecidableEq, Repr

/-- What an error of an operator is reported as. -/
def OperatorError.message : OperatorError → String
  | .operandNotNumber => "Operand must be a number."
  | .operandsNotNumbers => "Operands must be numbers."
  | .invalidOperands => "Operands must be two numbers or at least one string."
  | .divisionByZero => "Division by zero."

namespace Value

/-- Two values that have to be numbers. -/
def numbers : Value → Value → Except OperatorError (Float × Float)
  | .number left, .number right => .ok (left, right)
  | _, _ => .error .operandsNotNumbers

/-- The negative of a number. -/
def negate : Value → Except OperatorError Value
  | .number value => .ok (number (-value))
  | _ => .error .operandNotNumber

/-- The opposite of the truth of a value. -/
def invert (value : Value) : Value :=
  boolean (!value.isTruthy)

/-- The sum of two numbers, or the joined texts of two values of which one is a string. -/
def add : Value → Value → Except OperatorError Value
  | .number left, .number right => .ok (number (left + right))
  | .string left, right => .ok (string (left ++ right.text))
  | left, .string right => .ok (string (left.text ++ right))
  | _, _ => .error .invalidOperands

/-- A number computed from two numbers. -/
def arithmetic (compute : Float → Float → Float) (left right : Value) :
    Except OperatorError Value := do
  let (left, right) ← numbers left right
  pure (number (compute left right))

/-- The quotient of two numbers. Neither zero divides. -/
def divide (left right : Value) : Except OperatorError Value := do
  let (left, right) ← numbers left right
  if right == 0 then throw .divisionByZero else pure (number (left / right))

/-- A comparison of two numbers. -/
def compare (holds : Float → Float → Bool) (left right : Value) : Except OperatorError Value := do
  let (left, right) ← numbers left right
  pure (boolean (holds left right))

end Value

/-- What an operator makes of its operand. -/
def UnaryOperator.apply : UnaryOperator → Value → Except OperatorError Value
  | .negate, operand => operand.negate
  | .invert, operand => .ok operand.invert

/-- What an operator makes of its operands. -/
def BinaryOperator.apply : BinaryOperator → Value → Value → Except OperatorError Value
  | .add, left, right => left.add right
  | .subtract, left, right => Value.arithmetic (· - ·) left right
  | .multiply, left, right => Value.arithmetic (· * ·) left right
  | .divide, left, right => left.divide right
  | .greater, left, right => Value.compare (fun left right => right < left) left right
  | .greaterEqual, left, right => Value.compare (fun left right => right ≤ left) left right
  | .less, left, right => Value.compare (fun left right => left < right) left right
  | .lessEqual, left, right => Value.compare (fun left right => left ≤ right) left right
  | .equal, left, right => .ok (.boolean (left.equals right))
  | .notEqual, left, right => .ok (.boolean (!left.equals right))

/-- Whether the left operand alone decides a logical expression. -/
def LogicalOperator.decidedBy : LogicalOperator → Value → Bool
  | .both, left => !left.isTruthy
  | .either, left => left.isTruthy

end Scriptlet
