import Scriptlet.Expr.Basic

/-!
# Statements

Statement trees. A declaration can stand at the top level, in a block or in a function body; the
grammar keeps it out of branches and loop bodies.
-/

namespace Scriptlet

/-- The declaration of a variable, with its first value if one is given. -/
structure VariableDeclaration where
  name : Name
  initializer : Option Expr

/-- The first clause of a counting loop. -/
inductive ForInitializer where
  | absent
  | declaration (declaration : VariableDeclaration)
  | expression (expression : Expr)

/-- A statement. The tokens of `print` and `sleep` are kept: runtime errors are reported at
them. -/
inductive Stmt where
  | expression (expression : Expr)
  | print (keyword : Token.OfKind .printWord) (expression : Expr)
  | declareVariable (declaration : VariableDeclaration)
  | declareFunction (name : Name) (parameters : List Name) (body : List Stmt)
  | block (statements : List Stmt)
  | ifThen (condition : Expr) (consequence : Stmt)
  | ifElse (condition : Expr) (consequence alternative : Stmt)
  | whileLoop (condition : Expr) (body : Stmt)
  | forLoop (initializer : ForInitializer) (condition increment : Option Expr) (body : Stmt)
  | breakLoop
  | continueLoop
  | returnValue (value : Option Expr)
  | sleep (keyword : Token.OfKind .sleepWord) (duration : Expr)

/-- The declaration of a function. -/
structure FunctionDeclaration where
  name : Name
  parameters : List Name
  body : List Stmt

namespace FunctionDeclaration

/-- The number of parameters. -/
def arity (declaration : FunctionDeclaration) : Nat :=
  declaration.parameters.length

end FunctionDeclaration

end Scriptlet
