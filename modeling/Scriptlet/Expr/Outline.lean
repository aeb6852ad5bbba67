import Scriptlet.Expr.Basic
import Scriptlet.Outline

/-!
# Outlines of expressions

Operators come first, before their operands.
-/

namespace Scriptlet.Expr

mutual

/-- The outline of an expression. -/
def outline : Expr → Outline
  | .literal value => .atom value.text
  | .reference name => .atom name.lexeme
  | .grouping inner => .construct "group" [inner.outline]
  | .unary operator operand => .construct operator.lexeme [operand.outline]
  | .binary left operator right => .construct operator.lexeme [left.outline, right.outline]
  | .logical left operator right => .construct operator.lexeme [left.outline, right.outline]
  | .assign name value => .construct "=" [.atom name.lexeme, value.outline]
  | .call callee _ arguments => .construct "call" (callee.outline :: outlines arguments)

/-- The outlines of arguments. -/
def outlines : List Expr → List Outline
  | [] => []
  | argument :: others => argument.outline :: outlines others

end

end Scriptlet.Expr
