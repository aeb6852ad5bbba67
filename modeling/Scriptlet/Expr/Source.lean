import Scriptlet.Expr.Basic

/-!
# Expressions written as source

The text of an expression. No parentheses are added: a tree nests a looser operator inside a
tighter one only through a grouping.
-/

namespace Scriptlet.Expr

mutual

/-- The source text of an expression. -/
def source : Expr → String
  | .literal value => value.text
  | .reference name => name.lexeme
  | .grouping inner => "(" ++ inner.source ++ ")"
  | .unary operator operand => operator.lexeme ++ operand.source
  | .binary left operator right => left.source ++ " " ++ operator.lexeme ++ " " ++ right.source
  | .logical left operator right => left.source ++ " " ++ operator.lexeme ++ " " ++ right.source
  | .assign name value => name.lexeme ++ " = " ++ value.source
  | .call callee _ arguments => callee.source ++ "(" ++ ", ".intercalate (sources arguments) ++ ")"

/-- The source texts of arguments. -/
def sources : List Expr → List String
  | [] => []
  | argument :: others => argument.source :: sources others

end

end Scriptlet.Expr
