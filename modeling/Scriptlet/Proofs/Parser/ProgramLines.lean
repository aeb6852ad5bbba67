import Scriptlet.Parser.Statement
import Scriptlet.Proofs.Grammar.StatementLines
import Scriptlet.Proofs.Parser.Lines

/-!
# Programs are read apart from lines

No reader of expressions, statements or programs looks at lines. So tokens that are the same up to
lines are read as programs that are the same up to lines, with the same errors up to lines, also
where they are faulty.
-/

namespace Scriptlet

namespace Parser

/-- Expressions that are read apart from lines. -/
abbrev ReadsTreesAlike (reader other : Parser Expr) : Prop :=
  IgnoresLines reader other Expr.withoutLines

/-- Statements that are read apart from lines. -/
abbrev ReadsStatementsAlike (reader other : Parser Stmt) : Prop :=
  IgnoresLines reader other Stmt.withoutLines

section

variable {nested otherNested : Parser Expr}

theorem ignoresLines_primary (trees : ReadsTreesAlike nested otherNested) :
    ReadsTreesAlike (primary nested) (primary otherNested) := by
  have literals : IgnoresLines (accept literalOf?) (accept literalOf?) (Option.map id) :=
    ignoresLines_accept fun token => (congrFun Option.map_id (literalOf? token)).symm
  apply literals.bind
  rintro (_ | value)
  · apply (ignoresLines_acceptKind .identifier).bind
    rintro (_ | name)
    · apply (ignoresLines_acceptKind .leftParen).bind
      rintro (_ | paren)
      · exact ignoresLines_fail .missingExpression
      · apply trees.bind
        intro inner
        exact (ignoresLines_expectSymbol .rightParen .afterGrouping).bind
          fun _ => ignoresLines_pure rfl
    · exact ignoresLines_pure rfl
  · exact ignoresLines_pure rfl

theorem ignoresLines_finishCall (trees : ReadsTreesAlike nested otherNested) (callee : Expr) :
    ReadsTreesAlike (finishCall nested callee) (finishCall otherNested callee.withoutLines) := by
  apply (ignoresLines_closedList .tooManyArguments .afterArguments trees).bind
  rintro ⟨arguments, paren⟩
  apply ignoresLines_pure
  rw [Expr.withoutLines, Expr.listWithoutLines_eq]

theorem ignoresLines_call (trees : ReadsTreesAlike nested otherNested) :
    ReadsTreesAlike (call nested) (call otherNested) := by
  apply (ignoresLines_primary trees).bind
  intro callee
  refine ignoresLines_loop ?_ rfl
  intro callee
  apply (ignoresLines_acceptKind .leftParen).bind
  rintro (_ | paren)
  · exact ignoresLines_pure rfl
  · exact (ignoresLines_finishCall trees callee).bind fun _ => ignoresLines_pure rfl

theorem withoutLines_foldr_unary (operators : List (Operator UnaryOperator.kind)) (operand : Expr) :
    (operators.foldr Expr.unary operand).withoutLines
      = (operators.map Operator.withoutLine).foldr Expr.unary operand.withoutLines := by
  induction operators with
  | nil => rfl
  | cons operator operators ih => rw [List.foldr_cons, Expr.withoutLines, ih, List.map_cons,
      List.foldr_cons]

theorem ignoresLines_unary (trees : ReadsTreesAlike nested otherNested) :
    ReadsTreesAlike (unary nested) (unary otherNested) := by
  have operator : IgnoresLines
      (accept (Operator.of? UnaryOperator.kind · unaryOperators))
      (accept (Operator.of? UnaryOperator.kind · unaryOperators))
      (Option.map Operator.withoutLine) :=
    ignoresLines_accept fun token => Operator.of?_withoutLine token unaryOperators
  apply (ignoresLines_many operator).bind
  intro operators
  apply (ignoresLines_call trees).bind
  intro operand
  exact ignoresLines_pure (withoutLines_foldr_unary operators operand)

theorem ignoresLines_leftAssociative {ω : Type} {operator? : Token → Option ω}
    {join : Expr → ω → Expr → Expr} {erase : ω → ω}
    (operator_same : ∀ token, operator? token.withoutLine = (operator? token).map erase)
    (join_same : ∀ left operator right, (join left operator right).withoutLines
      = join left.withoutLines (erase operator) right.withoutLines)
    (operands : ReadsTreesAlike nested otherNested) :
    ReadsTreesAlike (leftAssociative operator? join nested)
      (leftAssociative operator? join otherNested) := by
  apply operands.bind
  intro first
  refine ignoresLines_loop ?_ rfl
  intro left
  apply (ignoresLines_accept operator_same).bind
  rintro (_ | operator)
  · exact ignoresLines_pure rfl
  · apply operands.bind
    intro right
    exact ignoresLines_pure (congrArg some (join_same left operator right))

theorem ignoresLines_binary (operands : ReadsTreesAlike nested otherNested)
    (levels : List (List BinaryOperator)) :
    ReadsTreesAlike (binary nested levels) (binary otherNested levels) := by
  induction levels with
  | nil => exact operands
  | cons operators tighter ih =>
      exact ignoresLines_leftAssociative (fun token => Operator.of?_withoutLine token operators)
        (fun _ _ _ => rfl) ih

theorem ignoresLines_logical (operator : LogicalOperator)
    (operands : ReadsTreesAlike nested otherNested) :
    ReadsTreesAlike (logical operator nested) (logical operator otherNested) :=
  ignoresLines_leftAssociative (fun token => Operator.of?_withoutLine token [operator])
    (fun _ _ _ => rfl) operands

theorem ignoresLines_assigned (target : Expr) (equals : Token.OfKind .equal) (value : Expr) :
    ReadsTreesAlike (assigned target equals value)
      (assigned target.withoutLines equals.withoutLine value.withoutLines) := by
  cases target with
  | reference name => exact ignoresLines_pure rfl
  | literal | grouping | unary | binary | logical | assign | call =>
      exact (ignoresLines_report rfl).bind fun _ => ignoresLines_pure rfl

theorem ignoresLines_assignment (trees : ReadsTreesAlike nested otherNested) :
    ReadsTreesAlike (assignment nested) (assignment otherNested) := by
  have targets : ReadsTreesAlike (disjunction nested) (disjunction otherNested) :=
    ignoresLines_logical .either
      (ignoresLines_logical .both (ignoresLines_binary (ignoresLines_unary trees) binaryLevels))
  apply targets.bind
  intro target
  apply (ignoresLines_acceptKind .equal).bind
  rintro (_ | equals)
  · exact ignoresLines_pure rfl
  · exact trees.bind fun value => ignoresLines_assigned target equals value

end

theorem ignoresLines_expressionWithin (bound : List Token) :
    ReadsTreesAlike (expressionWithin bound)
      (expressionWithin (bound.map Token.withoutLine)) := by
  induction bound with
  | nil => exact ignoresLines_fail .missingExpression
  | cons _ bound ih => exact ignoresLines_assignment ih

theorem ignoresLines_expression : ReadsTreesAlike expression expression :=
  fun state => ignoresLines_expressionWithin state.rest state

theorem ignoresLines_some_expression :
    IgnoresLines (some <$> expression) (some <$> expression) (Option.map Expr.withoutLines) :=
  ignoresLines_expression.map fun _ => rfl

theorem ignoresLines_variableDeclaration :
    IgnoresLines variableDeclaration variableDeclaration VariableDeclaration.withoutLines := by
  apply (ignoresLines_expect .identifier (.missingName .variable)).bind
  intro name
  apply (ignoresLines_acceptKind .equal).bind
  have ended (initializer : Option Expr) : IgnoresLines
      (expectSymbol .semicolon .afterVariableDeclaration >>= fun _ =>
        pure (⟨name, initializer⟩ : VariableDeclaration))
      (expectSymbol .semicolon .afterVariableDeclaration >>= fun _ =>
        pure (⟨name.withoutLine, initializer.map Expr.withoutLines⟩ : VariableDeclaration))
      VariableDeclaration.withoutLines :=
    (ignoresLines_expectSymbol .semicolon _).bind fun _ => ignoresLines_pure rfl
  rintro (_ | equals)
  · exact ended none
  · exact ignoresLines_some_expression.bind ended

theorem ignoresLines_terminated (place : SyntaxError.Place) :
    ReadsTreesAlike (terminated place) (terminated place) := by
  apply ignoresLines_expression.bind
  intro value
  exact (ignoresLines_expectSymbol .semicolon place).bind fun _ => ignoresLines_pure rfl

theorem ignoresLines_condition (word : String) (place : SyntaxError.Place) :
    ReadsTreesAlike (condition word place) (condition word place) := by
  apply (ignoresLines_expectSymbol .leftParen (.afterWord word)).bind
  intro _
  apply ignoresLines_expression.bind
  intro value
  exact (ignoresLines_expectSymbol .rightParen place).bind fun _ => ignoresLines_pure rfl

theorem ignoresLines_optionalBefore (kind : Token.Kind) :
    IgnoresLines (optionalBefore kind) (optionalBefore kind) (Option.map Expr.withoutLines) := by
  apply (ignoresLines_check kind).bind
  rintro (_ | _)
  · exact ignoresLines_some_expression
  · exact ignoresLines_pure rfl

theorem ignoresLines_forInitializer :
    IgnoresLines forInitializer forInitializer ForInitializer.withoutLines := by
  apply (ignoresLines_acceptKind .semicolon).bind
  rintro (_ | semicolon)
  · apply (ignoresLines_acceptKind .varWord).bind
    rintro (_ | keyword)
    · exact (ignoresLines_terminated .afterExpressionStatement).map fun _ => rfl
    · exact ignoresLines_variableDeclaration.map fun _ => rfl
  · exact ignoresLines_pure rfl

theorem ignoresLines_jumpStatement (keyword : Token) {jump : Stmt}
    (jump_same : jump.withoutLines = jump) :
    ReadsStatementsAlike (jumpStatement keyword jump)
      (jumpStatement keyword.withoutLine jump) := by
  have ended : ReadsStatementsAlike
      (expectSymbol .semicolon (.afterWord keyword.lexeme) >>= fun _ => pure jump)
      (expectSymbol .semicolon (.afterWord keyword.lexeme) >>= fun _ => pure jump) :=
    (ignoresLines_expectSymbol .semicolon _).bind fun _ => ignoresLines_pure jump_same
  apply ignoresLines_get.bind
  intro state
  by_cases outside : state.loopDepth = 0
  · simp only [State.withoutLines, outside, if_true]
    exact (ignoresLines_report rfl).bind fun _ => ended
  · simp only [State.withoutLines, outside, if_false]
    exact ended

theorem ignoresLines_returnStatement (keyword : Token) :
    ReadsStatementsAlike (returnStatement keyword) (returnStatement keyword.withoutLine) := by
  have ended : ReadsStatementsAlike
      (optionalBefore .semicolon >>= fun value =>
        expectSymbol .semicolon .afterReturnValue >>= fun _ => pure (.returnValue value))
      (optionalBefore .semicolon >>= fun value =>
        expectSymbol .semicolon .afterReturnValue >>= fun _ => pure (.returnValue value)) := by
    apply (ignoresLines_optionalBefore .semicolon).bind
    intro value
    exact (ignoresLines_expectSymbol .semicolon _).bind fun _ => ignoresLines_pure rfl
  apply ignoresLines_get.bind
  intro state
  by_cases outside : state.functionDepth = 0
  · simp only [State.withoutLines, outside, if_true]
    exact (ignoresLines_report rfl).bind fun _ => ended
  · simp only [State.withoutLines, outside, if_false]
    exact ended

/-- What a token opens, without lines. -/
def Opening.withoutLine : Opening → Opening
  | .print keyword => .print keyword.withoutLine
  | .sleep keyword => .sleep keyword.withoutLine
  | .returnWord keyword => .returnWord keyword.withoutLine
  | .breakWord keyword => .breakWord keyword.withoutLine
  | .continueWord keyword => .continueWord keyword.withoutLine
  | opening => opening

theorem Opening.of?_withoutLine (token : Token) :
    of? token.withoutLine = (of? token).map withoutLine := by
  rcases token with ⟨kind, lexeme, literal, line⟩
  cases kind <;> rfl

theorem withoutLines_filterMap (parts : List (Option Stmt)) :
    (parts.filterMap id).map Stmt.withoutLines
      = (parts.map (Option.map Stmt.withoutLines)).filterMap id := by
  rw [List.map_filterMap, List.filterMap_map]
  rfl

section

variable {nested otherNested : Parser Stmt}

theorem ignoresLines_statementOnly (statements : ReadsStatementsAlike nested otherNested) :
    ReadsStatementsAlike (statementOnly nested) (statementOnly otherNested) := by
  apply (ignoresLines_check .varWord).bind
  rintro (_ | _)
  · apply (ignoresLines_check .funWord).bind
    rintro (_ | _)
    · exact statements
    · exact ignoresLines_fail .missingExpression
  · exact ignoresLines_fail .missingExpression

/-- A declaration that may be given up, read where there is one. -/
theorem ignoresLines_part (statements : ReadsStatementsAlike nested otherNested) :
    IgnoresLines (some <$> recovering nested) (some <$> recovering otherNested)
      (Option.map (Option.map Stmt.withoutLines)) :=
  (ignoresLines_recovering statements).map fun _ => rfl

theorem ignoresLines_block (statements : ReadsStatementsAlike nested otherNested) :
    IgnoresLines (block nested) (block otherNested) (List.map Stmt.withoutLines) := by
  have part : IgnoresLines
      (do if (← check .rightBrace) || (← atEnd) then pure none else some <$> recovering nested)
      (do if (← check .rightBrace) || (← atEnd) then pure none else some <$> recovering otherNested)
      (Option.map (Option.map Stmt.withoutLines)) := by
    apply (ignoresLines_check .rightBrace).bind
    rintro (_ | _)
    · apply ignoresLines_atEnd.bind
      rintro (_ | _)
      · exact ignoresLines_part statements
      · exact ignoresLines_pure rfl
    · exact ignoresLines_pure rfl
  apply (ignoresLines_many part).bind
  intro parts
  apply (ignoresLines_expectSymbol .rightBrace .afterBlock).bind
  exact fun _ => ignoresLines_pure (withoutLines_filterMap parts)

theorem ignoresLines_ifStatement (statements : ReadsStatementsAlike nested otherNested) :
    ReadsStatementsAlike (ifStatement nested) (ifStatement otherNested) := by
  apply (ignoresLines_condition "if" .afterIfCondition).bind
  intro condition
  apply statements.bind
  intro consequence
  apply (ignoresLines_acceptKind .elseWord).bind
  rintro (_ | elseWord)
  · exact ignoresLines_pure rfl
  · exact statements.bind fun _ => ignoresLines_pure rfl

theorem ignoresLines_whileStatement (statements : ReadsStatementsAlike nested otherNested) :
    ReadsStatementsAlike (whileStatement nested) (whileStatement otherNested) := by
  apply (ignoresLines_condition "while" .afterWhileCondition).bind
  intro condition
  exact (ignoresLines_inLoop statements).bind fun _ => ignoresLines_pure rfl

theorem ignoresLines_forStatement (statements : ReadsStatementsAlike nested otherNested) :
    ReadsStatementsAlike (forStatement nested) (forStatement otherNested) := by
  apply (ignoresLines_expectSymbol .leftParen (.afterWord "for")).bind
  intro _
  apply ignoresLines_forInitializer.bind
  intro initializer
  apply (ignoresLines_optionalBefore .semicolon).bind
  intro condition
  apply (ignoresLines_expectSymbol .semicolon .afterLoopCondition).bind
  intro _
  apply (ignoresLines_optionalBefore .rightParen).bind
  intro increment
  apply (ignoresLines_expectSymbol .rightParen .afterForClauses).bind
  intro _
  exact (ignoresLines_inLoop statements).bind fun _ => ignoresLines_pure rfl

theorem ignoresLines_functionDeclaration (statements : ReadsStatementsAlike nested otherNested) :
    ReadsStatementsAlike (functionDeclaration (block nested))
      (functionDeclaration (block otherNested)) := by
  apply (ignoresLines_expect .identifier (.missingName .function)).bind
  intro name
  apply (ignoresLines_expectSymbol .leftParen .afterFunctionName).bind
  intro _
  apply (ignoresLines_closedList .tooManyParameters .afterParameters
    (ignoresLines_expect .identifier (.missingName .parameter))).bind
  rintro ⟨parameters, paren⟩
  apply (ignoresLines_expectSymbol .leftBrace .beforeFunctionBody).bind
  intro _
  apply (ignoresLines_inFunction (ignoresLines_block statements)).bind
  intro body
  apply ignoresLines_pure
  rw [Stmt.withoutLines, Stmt.listWithoutLines_eq]

theorem ignoresLines_opened (statements : ReadsStatementsAlike nested otherNested)
    (opening : Opening) :
    ReadsStatementsAlike (opened nested opening) (opened otherNested opening.withoutLine) := by
  have only := ignoresLines_statementOnly statements
  cases opening with
  | varWord => exact ignoresLines_variableDeclaration.map fun _ => rfl
  | funWord => exact ignoresLines_functionDeclaration statements
  | print keyword => exact (ignoresLines_terminated .afterPrintedValue).map fun _ => rfl
  | sleep keyword => exact (ignoresLines_terminated .afterSleepDuration).map fun _ => rfl
  | ifWord => exact ignoresLines_ifStatement only
  | whileWord => exact ignoresLines_whileStatement only
  | forWord => exact ignoresLines_forStatement only
  | returnWord keyword => exact ignoresLines_returnStatement keyword
  | breakWord keyword => exact ignoresLines_jumpStatement keyword rfl
  | continueWord keyword => exact ignoresLines_jumpStatement keyword rfl
  | leftBrace =>
      apply (ignoresLines_block statements).map
      intro body
      rw [Stmt.withoutLines, Stmt.listWithoutLines_eq]

theorem ignoresLines_declarationForm (statements : ReadsStatementsAlike nested otherNested) :
    ReadsStatementsAlike (declarationForm nested) (declarationForm otherNested) := by
  apply (ignoresLines_accept Opening.of?_withoutLine).bind
  rintro (_ | opening)
  · exact (ignoresLines_terminated .afterExpressionStatement).map fun _ => rfl
  · exact ignoresLines_opened statements opening

end

theorem ignoresLines_declarationWithin (bound : List Token) :
    ReadsStatementsAlike (declarationWithin bound)
      (declarationWithin (bound.map Token.withoutLine)) := by
  induction bound with
  | nil => exact ignoresLines_fail .missingExpression
  | cons _ bound ih => exact ignoresLines_declarationForm ih

theorem ignoresLines_declaration : ReadsStatementsAlike declaration declaration :=
  fun state => ignoresLines_declarationWithin state.rest state

theorem ignoresLines_program : IgnoresLines program program (List.map Stmt.withoutLines) := by
  have part : IgnoresLines
      (do if ← atEnd then pure none else some <$> recovering declaration)
      (do if ← atEnd then pure none else some <$> recovering declaration)
      (Option.map (Option.map Stmt.withoutLines)) := by
    apply ignoresLines_atEnd.bind
    rintro (_ | _)
    · exact ignoresLines_part ignoresLines_declaration
    · exact ignoresLines_pure rfl
  apply (ignoresLines_many part).bind
  exact fun parts => ignoresLines_pure (withoutLines_filterMap parts)

/-- What is made of tokens without lines is what is made of the tokens, without lines. -/
theorem parseProgram_withoutLine (tokens : List Token) :
    parseProgram (tokens.map Token.withoutLine) =
      ((parseProgram tokens).1.map Stmt.withoutLines,
        (parseProgram tokens).2.map SyntaxError.withoutLine) := by
  have ended := ignoresLines_program (.start tokens)
  simp only [State.withoutLines, State.start, List.map_nil] at ended
  simp only [parseProgram, run, State.start, ended]
  cases program ⟨tokens, 0, 0, []⟩ with
  | ok statements after => rfl
  | error error after => simp [resultWithoutLines, State.withoutLines]

/-- Tokens that are the same up to lines are read alike, faults included. -/
theorem parseProgram_alike {tokens others : List Token}
    (same : tokens.map Token.withoutLine = others.map Token.withoutLine) :
    Stmt.listWithoutLines (parseProgram tokens).1 = Stmt.listWithoutLines (parseProgram others).1 ∧
      (parseProgram tokens).2.map SyntaxError.withoutLine
        = (parseProgram others).2.map SyntaxError.withoutLine := by
  have read_same := parseProgram_withoutLine tokens
  rw [same, parseProgram_withoutLine others, Prod.mk.injEq] at read_same
  rw [Stmt.listWithoutLines_eq, Stmt.listWithoutLines_eq]
  exact ⟨read_same.1.symm, read_same.2.symm⟩

end Parser

end Scriptlet
