import Scriptlet.Token.OfKind

/-!
# Expressions

Operator families and expression trees. A tree keeps the parentheses of the source as a node, so
no precedence has to be recovered when it is written out.
-/

namespace Scriptlet

/-- Operators before their operand. -/
inductive UnaryOperator where
  | negate
  | invert
  deriving DecidableEq, Repr

/-- The kind of the token that an operator is written as. -/
def UnaryOperator.kind : UnaryOperator → Token.Kind
  | .negate => .minus
  | .invert => .bang

theorem UnaryOperator.kind_injective (left right : UnaryOperator)
    (same : left.kind = right.kind) : left = right := by
  revert same
  cases left <;> cases right <;> decide

/-- Operators between two operands that are both evaluated. -/
inductive BinaryOperator where
  | add
  | subtract
  | multiply
  | divide
  | greater
  | greaterEqual
  | less
  | lessEqual
  | equal
  | notEqual
  deriving DecidableEq, Repr

/-- The kind of the token that an operator is written as. -/
def BinaryOperator.kind : BinaryOperator → Token.Kind
  | .add => .plus
  | .subtract => .minus
  | .multiply => .star
  | .divide => .slash
  | .greater => .greater
  | .greaterEqual => .greaterEqual
  | .less => .less
  | .lessEqual => .lessEqual
  | .equal => .equalEqual
  | .notEqual => .bangEqual

theorem BinaryOperator.kind_injective (left right : BinaryOperator)
    (same : left.kind = right.kind) : left = right := by
  revert same
  cases left <;> cases right <;> decide

/-- Operators that evaluate their right operand only if the left one does not decide. -/
inductive LogicalOperator where
  | both
  | either
  deriving DecidableEq, Repr

/-- The kind of the token that an operator is written as. -/
def LogicalOperator.kind : LogicalOperator → Token.Kind
  | .both => .andWord
  | .either => .orWord

theorem LogicalOperator.kind_injective (left right : LogicalOperator)
    (same : left.kind = right.kind) : left = right := by
  revert same
  cases left <;> cases right <;> decide

/-- An expression. Names, operators and the closing parenthesis of a call keep their tokens:
runtime errors are reported at them. -/
inductive Expr where
  | literal (value : Literal)
  | reference (name : Name)
  | grouping (inner : Expr)
  | unary (operator : Operator UnaryOperator.kind) (operand : Expr)
  | binary (left : Expr) (operator : Operator BinaryOperator.kind) (right : Expr)
  | logical (left : Expr) (operator : Operator LogicalOperator.kind) (right : Expr)
  | assign (name : Name) (value : Expr)
  | call (callee : Expr) (paren : Token.OfKind .rightParen) (arguments : List Expr)

end Scriptlet
