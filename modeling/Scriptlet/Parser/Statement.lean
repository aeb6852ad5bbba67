import Scriptlet.Parser.Expression
import Scriptlet.Stmt.Basic

/-!
# Reading statements

Statements are told apart by the token that opens them. A fault inside a declaration ends that
declaration, is reported, and reading goes on with the next one, so one pass reports several
faults. Jumps that have no loop or function around them are reported where they stand and are kept.
-/

namespace Scriptlet.Parser

/-- The token that decides what a statement or declaration is. -/
inductive Opening where
  | varWord
  | funWord
  | print (keyword : Token.OfKind .printWord)
  | sleep (keyword : Token.OfKind .sleepWord)
  | ifWord
  | whileWord
  | forWord
  | returnWord (keyword : Token)
  | breakWord (keyword : Token)
  | continueWord (keyword : Token)
  | leftBrace

/-- What a token opens. Every other token starts an expression. -/
def Opening.of? (token : Token) : Option Opening :=
  match kind_eq : token.kind with
  | .varWord => some .varWord
  | .funWord => some .funWord
  | .printWord => some (.print ⟨token, kind_eq⟩)
  | .sleepWord => some (.sleep ⟨token, kind_eq⟩)
  | .ifWord => some .ifWord
  | .whileWord => some .whileWord
  | .forWord => some .forWord
  | .returnWord => some (.returnWord token)
  | .breakWord => some (.breakWord token)
  | .continueWord => some (.continueWord token)
  | .leftBrace => some .leftBrace
  | _ => none

/-- Reads what follows `var`. -/
def variableDeclaration : Parser VariableDeclaration := do
  let name ← expect .identifier (.missingName .variable)
  let initializer ← match ← acceptKind .equal with
    | some _ => some <$> expression
    | none => pure none
  let _ ← expectSymbol .semicolon .afterVariableDeclaration
  pure ⟨name, initializer⟩

/-- Reads an expression and the semicolon after it. -/
def terminated (place : SyntaxError.Place) : Parser Expr := do
  let value ← expression
  let _ ← expectSymbol .semicolon place
  pure value

/-- Reads a condition in parentheses. -/
def condition (word : String) (place : SyntaxError.Place) : Parser Expr := do
  let _ ← expectSymbol .leftParen (.afterWord word)
  let value ← expression
  let _ ← expectSymbol .rightParen place
  pure value

/-- Reads an expression, unless the symbol that ends its clause comes first. -/
def optionalBefore (kind : Token.Kind) : Parser (Option Expr) := do
  if ← check kind then pure none else some <$> expression

/-- Reads a statement by the parser for declarations. Where a declaration has no place, the token
that opens it starts no expression either. -/
def statementOnly (declaration : Parser Stmt) : Parser Stmt := do
  if (← check .varWord) || (← check .funWord) then fail .missingExpression else declaration

/-- Reads declarations up to a closing brace. -/
def block (declaration : Parser Stmt) : Parser (List Stmt) := do
  let parts ← many do
    if (← check .rightBrace) || (← atEnd) then pure none else some <$> recovering declaration
  let _ ← expectSymbol .rightBrace .afterBlock
  pure (parts.filterMap id)

/-- Reads what follows `if`. An `else` belongs to the nearest `if`. -/
def ifStatement (statement : Parser Stmt) : Parser Stmt := do
  let condition ← condition "if" .afterIfCondition
  let consequence ← statement
  match ← acceptKind .elseWord with
  | some _ => do pure (.ifElse condition consequence (← statement))
  | none => pure (.ifThen condition consequence)

/-- Reads what follows `while`. -/
def whileStatement (statement : Parser Stmt) : Parser Stmt := do
  let condition ← condition "while" .afterWhileCondition
  let body ← inLoop statement
  pure (.whileLoop condition body)

/-- Reads the first clause of a counting loop. -/
def forInitializer : Parser ForInitializer := do
  match ← acceptKind .semicolon with
  | some _ => pure .absent
  | none =>
    match ← acceptKind .varWord with
    | some _ => .declaration <$> variableDeclaration
    | none => .expression <$> terminated .afterExpressionStatement

/-- Reads what follows `for`. -/
def forStatement (statement : Parser Stmt) : Parser Stmt := do
  let _ ← expectSymbol .leftParen (.afterWord "for")
  let initializer ← forInitializer
  let condition ← optionalBefore .semicolon
  let _ ← expectSymbol .semicolon .afterLoopCondition
  let increment ← optionalBefore .rightParen
  let _ ← expectSymbol .rightParen .afterForClauses
  let body ← inLoop statement
  pure (.forLoop initializer condition increment body)

/-- Reads what follows `break` or `continue`. -/
def jumpStatement (keyword : Token) (jump : Stmt) : Parser Stmt := do
  if (← get).loopDepth = 0 then report ⟨.jumpOutsideLoop keyword.lexeme, some keyword⟩
  let _ ← expectSymbol .semicolon (.afterWord keyword.lexeme)
  pure jump

/-- Reads what follows `return`. -/
def returnStatement (keyword : Token) : Parser Stmt := do
  if (← get).functionDepth = 0 then report ⟨.returnOutsideFunction, some keyword⟩
  let value ← optionalBefore .semicolon
  let _ ← expectSymbol .semicolon .afterReturnValue
  pure (.returnValue value)

/-- Reads a function after `fun`; its body is given by the parser for blocks. -/
def functionDeclaration (block : Parser (List Stmt)) : Parser Stmt := do
  let name ← expect .identifier (.missingName .function)
  let _ ← expectSymbol .leftParen .afterFunctionName
  let (parameters, _) ← closedList .tooManyParameters .afterParameters
    (expect .identifier (.missingName .parameter))
  let _ ← expectSymbol .leftBrace .beforeFunctionBody
  let body ← inFunction block
  pure (.declareFunction name parameters body)

/-- Reads what follows an opening, by the parser for the declarations nested in it. -/
def opened (nested : Parser Stmt) : Opening → Parser Stmt
  | .varWord => .declareVariable <$> variableDeclaration
  | .funWord => functionDeclaration (block nested)
  | .print keyword => .print keyword <$> terminated .afterPrintedValue
  | .sleep keyword => .sleep keyword <$> terminated .afterSleepDuration
  | .ifWord => ifStatement (statementOnly nested)
  | .whileWord => whileStatement (statementOnly nested)
  | .forWord => forStatement (statementOnly nested)
  | .returnWord keyword => returnStatement keyword
  | .breakWord keyword => jumpStatement keyword .breakLoop
  | .continueWord keyword => jumpStatement keyword .continueLoop
  | .leftBrace => .block <$> block nested

/-- Reads a declaration or a statement by the parser for those nested in it. -/
def declarationForm (nested : Parser Stmt) : Parser Stmt := do
  match ← accept Opening.of? with
  | some opening => opened nested opening
  | none => .expression <$> terminated .afterExpressionStatement

/-- Reads a declaration or a statement nested at most as deep as there are tokens in a list. A
nested one starts after a token of the outer one. -/
def declarationWithin : List Token → Parser Stmt
  | [] => fail .missingExpression
  | _ :: bound => declarationForm (declarationWithin bound)

/-- Reads a declaration or a statement. Nesting is bounded by the tokens that are left. -/
def declaration : Parser Stmt := fun state =>
  declarationWithin state.rest state

/-- Reads declarations up to the end of input. -/
def program : Parser (List Stmt) := do
  let parts ← many do
    if ← atEnd then pure none else some <$> recovering declaration
  pure (parts.filterMap id)

/-- The statements of a sequence of tokens without the end of input, and the errors in it. Reading
a program always recovers and so does not fail. -/
def parseProgram (tokens : List Token) : List Stmt × List SyntaxError :=
  match run program tokens with
  | (.ok statements, errors) => (statements, errors)
  | (.error error, errors) => ([], errors ++ [error])

end Scriptlet.Parser
