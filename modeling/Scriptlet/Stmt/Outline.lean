import Scriptlet.Expr.Outline
import Scriptlet.Stmt.Basic

/-!
# Outlines of statements and programs

The outline of a program has one line for each of its statements. The clauses of a counting loop
that are left out are shown as `nil`.
-/

namespace Scriptlet

/-- The outline of a clause that may be left out. -/
def Expr.optionalOutline : Option Expr → Outline
  | none => .atom "nil"
  | some expression => expression.outline

/-- The outline of a declaration. -/
def VariableDeclaration.outline (declaration : VariableDeclaration) : Outline :=
  .construct "var" (.atom declaration.name.lexeme
    :: (declaration.initializer.map Expr.outline).toList)

/-- The outline of the initializer of a counting loop. -/
def ForInitializer.outline : ForInitializer → Outline
  | .absent => .atom "nil"
  | .declaration declared => declared.outline
  | .expression value => .construct ";" [value.outline]

namespace Stmt

mutual

/-- The outline of a statement. -/
def outline : Stmt → Outline
  | .expression value => .construct ";" [value.outline]
  | .print _ value => .construct "print" [value.outline]
  | .declareVariable declared => declared.outline
  | .declareFunction name parameters body =>
      .construct "fun" (.atom name.lexeme
        :: .list (parameters.map fun parameter => .atom parameter.lexeme) :: outlines body)
  | .block statements => .construct "block" (outlines statements)
  | .ifThen condition consequence => .construct "if" [condition.outline, consequence.outline]
  | .ifElse condition consequence alternative =>
      .construct "if" [condition.outline, consequence.outline, alternative.outline]
  | .whileLoop condition body => .construct "while" [condition.outline, body.outline]
  | .forLoop initializer condition increment body =>
      .construct "for" [initializer.outline, Expr.optionalOutline condition,
        Expr.optionalOutline increment, body.outline]
  | .breakLoop => .construct "break" []
  | .continueLoop => .construct "continue" []
  | .returnValue value => .construct "return" (value.map Expr.outline).toList
  | .sleep _ duration => .construct "sleep" [duration.outline]

/-- The outlines of statements. -/
def outlines : List Stmt → List Outline
  | [] => []
  | statement :: others => statement.outline :: outlines others

end

/-- The outlines of a program, one a line. -/
def programText (statements : List Stmt) : String :=
  "\n".intercalate ((outlines statements).map Outline.text)

end Stmt

end Scriptlet
