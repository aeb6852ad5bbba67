import Scriptlet.Proofs.Parser.Completion
import Scriptlet.Proofs.Parser.Program

/-!
# Reading makes progress and restores the counters

Every reader of the grammar has an outcome at every position. So reading a program ends at the first
end of input whatever the tokens are, and every declaration on the way to it moves the position on
and leaves the counters as they were, whether it is read or skipped.
-/

namespace Scriptlet.Parser

open Grammar

variable {tokens : List Token} {whole : Tokens} {room : Nat}

section

variable (found : Tokens.ofList? tokens = some whole)
include found

section Expressions

variable {operand : Parser Expr}

theorem completes_primary (trees : Completes tokens whole room expression) :
    Completes tokens whole (room + 1) (primary expression) := by
  refine .accept_bind found (fun value => .pure _) ?_
  refine .accept_bind found (fun name => .pure _) ?_
  refine .accept_bind found (fun _ => ?_) (.fail found _)
  apply trees.bind
  intro inner
  exact (Completes.expectSymbol found .rightParen .afterGrouping).bind fun _ =>
    .pure (Expr.grouping inner)

theorem completes_finishCall (trees : Completes tokens whole room expression) (callee : Expr) :
    Completes tokens whole room (finishCall expression callee) := by
  have advances : Advances (furtherMember .tooManyArguments expression) :=
    advances_furtherMember (@reads_expression strict)
  exact (Completes.closedList found advances .afterArguments trees).bind fun result =>
    .pure (Expr.call callee result.2 result.1)

theorem completes_call (trees : Completes tokens whole room expression) :
    Completes tokens whole (room + 1) (call expression) := by
  rw [call_eq]
  apply (completes_primary found trees).bind
  refine Completes.loop (advances_furtherCall (@reads_expression strict)) ?_
  intro callee
  refine .accept_bind found (fun _ => ?_) (.pure none)
  exact (completes_finishCall found trees callee).bind fun tree => .pure (some tree)

theorem completes_unary (trees : Completes tokens whole room expression) :
    Completes tokens whole (room + 1) (unary expression) := by
  apply (Completes.many (itemAdvances_accept _) (.accept found _)).bind
  intro operators
  exact (completes_call found trees).bind fun operand => .pure (operators.foldr .unary operand)

theorem completes_leftAssociative {Operation : Type} {operator? : Token → Option Operation}
    {join : Expr → Operation → Expr → Expr}
    (leads : ∀ before : State, before.Leads (stop operand before))
    (operands : Completes tokens whole room operand) :
    Completes tokens whole room (leftAssociative operator? join operand) := by
  apply operands.bind
  refine Completes.loop (advances_further leads) ?_
  intro left
  apply (Completes.accept found operator?).bind
  rintro (_ | operation)
  · exact .pure none
  · exact operands.bind fun right => .pure (some (join left operation right))

theorem completes_binary (level : Level) {tighter : List (List BinaryOperator)}
    (operand_reads : ReadsCategory strict (binary operand tighter) level.operand)
    (operands : Completes tokens whole room (binary operand tighter)) :
    Completes tokens whole room (binary operand (level.binaryOperators :: tighter)) :=
  completes_leftAssociative found operand_reads.leads operands

theorem completes_logical (operator : LogicalOperator) {category : Category}
    (operand_reads : ReadsCategory strict operand category)
    (operands : Completes tokens whole room operand) :
    Completes tokens whole room (logical operator operand) :=
  completes_leftAssociative found operand_reads.leads operands

theorem completes_disjunction (trees : Completes tokens whole room expression) :
    Completes tokens whole (room + 1) (disjunction expression) := by
  have unary_reads : ReadsCategory strict (binary (unary expression) []) .unary :=
    reads_unary reads_expression
  have product_reads := reads_binary .product unary_reads
  have sum_reads := reads_binary .sum product_reads
  have comparison_reads := reads_binary .comparison sum_reads
  have equality_reads := reads_binary .equality comparison_reads
  have product := completes_binary found .product unary_reads (completes_unary found trees)
  have sum := completes_binary found .sum product_reads product
  have comparison := completes_binary found .comparison sum_reads sum
  have equality := completes_binary found .equality comparison_reads comparison
  have conjunction := completes_logical found .both equality_reads equality
  exact completes_logical found .either (reads_logical .conjunction rfl equality_reads) conjunction

theorem completes_assignment (trees : Completes tokens whole room expression) :
    Completes tokens whole (room + 1) (assignment expression) := by
  apply (completes_disjunction found trees).bind
  intro target
  refine .accept_bind found (fun equals => ?_) (.pure target)
  apply trees.bind
  intro value
  cases target with
  | reference name => exact .pure (Expr.assign name value)
  | _ => exact (Completes.report _).bind fun _ => .pure _

/-- An expression is read or fails everywhere. -/
theorem completes_expression : Completes tokens whole room expression := by
  induction room with
  | zero => exact .zero
  | succ room ih =>
      rw [expression_eq]
      exact completes_assignment found ih

end Expressions

section Statements

theorem completes_variableDeclaration : Completes tokens whole room variableDeclaration := by
  apply (Completes.expect found .identifier (.missingName .variable)).bind
  intro name
  have finish (initializer : Option Expr) : Completes tokens whole room
      (expectSymbol .semicolon .afterVariableDeclaration >>= fun _ =>
        pure (VariableDeclaration.mk name initializer)) :=
    (Completes.expectSymbol found .semicolon .afterVariableDeclaration).bind fun _ => .pure _
  apply (Completes.accept found _).bind
  rintro (_ | equals)
  · exact finish none
  · exact ((completes_expression found).map some).bind finish

theorem completes_terminated (place : SyntaxError.Place) :
    Completes tokens whole room (terminated place) :=
  (completes_expression found).bind fun value =>
    (Completes.expectSymbol found .semicolon place).bind fun _ => .pure value

theorem completes_condition (word : String) (place : SyntaxError.Place) :
    Completes tokens whole room (condition word place) :=
  (Completes.expectSymbol found .leftParen (.afterWord word)).bind fun _ =>
    (completes_expression found).bind fun value =>
      (Completes.expectSymbol found .rightParen place).bind fun _ => .pure value

theorem completes_optionalBefore (kind : Token.Kind) :
    Completes tokens whole room (optionalBefore kind) := by
  apply (Completes.check found kind).bind
  rintro (_ | _)
  · exact (completes_expression found).map some
  · exact .pure none

theorem completes_forInitializer : Completes tokens whole room forInitializer := by
  apply (Completes.accept found _).bind
  rintro (_ | semicolon)
  · apply (Completes.accept found _).bind
    rintro (_ | keyword)
    · exact (completes_terminated found .afterExpressionStatement).map ForInitializer.expression
    · exact (completes_variableDeclaration found).map ForInitializer.declaration
  · exact .pure ForInitializer.absent

theorem completes_jumpStatement (keyword : Token) (jump : Stmt) :
    Completes tokens whole room (jumpStatement keyword jump) := by
  have finish : Completes tokens whole room
      (expectSymbol .semicolon (.afterWord keyword.lexeme) >>= fun _ => pure jump) :=
    (Completes.expectSymbol found .semicolon (.afterWord keyword.lexeme)).bind fun _ => .pure jump
  have counted (loopDepth _functionDepth : Nat) : Completes tokens whole room (do
      if loopDepth = 0 then report ⟨.jumpOutsideLoop keyword.lexeme, some keyword⟩
      let _ ← expectSymbol .semicolon (.afterWord keyword.lexeme)
      pure jump) := by
    split
    · exact (Completes.report _).bind fun _ => finish
    · exact finish
  exact .counters counted

theorem completes_returnStatement (keyword : Token) :
    Completes tokens whole room (returnStatement keyword) := by
  have finish : Completes tokens whole room (optionalBefore .semicolon >>= fun value =>
      expectSymbol .semicolon .afterReturnValue >>= fun _ => pure (Stmt.returnValue value)) :=
    (completes_optionalBefore found .semicolon).bind fun value =>
      (Completes.expectSymbol found .semicolon .afterReturnValue).bind fun _ => .pure _
  have counted (_loopDepth functionDepth : Nat) : Completes tokens whole room (do
      if functionDepth = 0 then report ⟨.returnOutsideFunction, some keyword⟩
      let value ← optionalBefore .semicolon
      let _ ← expectSymbol .semicolon .afterReturnValue
      pure (Stmt.returnValue value)) := by
    split
    · exact (Completes.report _).bind fun _ => finish
    · exact finish
  exact .counters counted

theorem completes_statementOnly {nested : Parser Stmt}
    (statements : Completes tokens whole room nested) :
    Completes tokens whole room (statementOnly nested) := by
  apply (Completes.check found .varWord).bind
  intro variable_next
  apply (Completes.check found .funWord).bind
  intro function_next
  split
  · exact .fail found .missingExpression
  · exact statements

theorem completes_block (parts : Completes tokens whole room declaration) :
    Completes tokens whole room (block declaration) := by
  have items : Completes tokens whole room (blockPart declaration) := by
    apply (Completes.check found .rightBrace).bind
    intro closed
    apply (Completes.atEnd found).bind
    intro ended
    split
    · exact .pure none
    · exact (Completes.recovering found parts).map some
  rw [block_eq]
  apply (Completes.many (itemAdvances_blockPart reads_declaration) items).bind
  intro results
  exact (Completes.expectSymbol found .rightBrace .afterBlock).bind fun _ => .pure _

theorem completes_ifStatement {nested : Parser Stmt}
    (statements : Completes tokens whole room nested) :
    Completes tokens whole room (ifStatement nested) := by
  apply (completes_condition found "if" .afterIfCondition).bind
  intro condition
  apply statements.bind
  intro consequence
  apply (Completes.accept found _).bind
  rintro (_ | elseWord)
  · exact .pure _
  · exact statements.bind fun alternative => .pure (Stmt.ifElse condition consequence alternative)

theorem completes_whileStatement {nested : Parser Stmt}
    (statements : Completes tokens whole room nested) :
    Completes tokens whole room (whileStatement nested) := by
  apply (completes_condition found "while" .afterWhileCondition).bind
  intro condition
  exact statements.inLoop.bind fun body => .pure (Stmt.whileLoop condition body)

theorem completes_forStatement {nested : Parser Stmt}
    (statements : Completes tokens whole room nested) :
    Completes tokens whole room (forStatement nested) := by
  apply (Completes.expectSymbol found .leftParen (.afterWord "for")).bind
  intro _
  apply (completes_forInitializer found).bind
  intro initializer
  apply (completes_optionalBefore found .semicolon).bind
  intro condition
  apply (Completes.expectSymbol found .semicolon .afterLoopCondition).bind
  intro _
  apply (completes_optionalBefore found .rightParen).bind
  intro increment
  apply (Completes.expectSymbol found .rightParen .afterForClauses).bind
  intro _
  exact statements.inLoop.bind fun body =>
    .pure (Stmt.forLoop initializer condition increment body)

theorem completes_functionDeclaration (parts : Completes tokens whole room declaration) :
    Completes tokens whole room (functionDeclaration (block declaration)) := by
  have parameter : Completes tokens whole room (expect .identifier (.missingName .parameter)) :=
    .expect found .identifier (.missingName .parameter)
  have advances : Advances
      (furtherMember .tooManyParameters (expect .identifier (.missingName .parameter))) :=
    advances_furtherMember (@reads_expect strict _ _ rfl)
  apply (Completes.expect found .identifier (.missingName .function)).bind
  intro name
  apply (Completes.expectSymbol found .leftParen .afterFunctionName).bind
  intro _
  apply (Completes.closedList found advances .afterParameters parameter).bind
  intro parameters
  apply (Completes.expectSymbol found .leftBrace .beforeFunctionBody).bind
  intro _
  exact (completes_block found parts).inFunction.bind fun body =>
    .pure (Stmt.declareFunction name parameters.1 body)

theorem completes_opened (parts : Completes tokens whole room declaration) (opening : Opening) :
    Completes tokens whole room (opened declaration opening) := by
  have statements := completes_statementOnly found parts
  cases opening with
  | varWord => exact (completes_variableDeclaration found).map Stmt.declareVariable
  | funWord => exact completes_functionDeclaration found parts
  | print keyword => exact (completes_terminated found .afterPrintedValue).map (Stmt.print keyword)
  | sleep keyword =>
      exact (completes_terminated found .afterSleepDuration).map (Stmt.sleep keyword)
  | ifWord => exact completes_ifStatement found statements
  | whileWord => exact completes_whileStatement found statements
  | forWord => exact completes_forStatement found statements
  | returnWord keyword => exact completes_returnStatement found keyword
  | breakWord keyword => exact completes_jumpStatement found keyword .breakLoop
  | continueWord keyword => exact completes_jumpStatement found keyword .continueLoop
  | leftBrace => exact (completes_block found parts).map Stmt.block

/-- A declaration is read or fails everywhere. -/
theorem completes_declaration : Completes tokens whole room declaration := by
  induction room with
  | zero => exact .zero
  | succ room ih =>
      rw [declaration_eq]
      refine .accept_bind found (completes_opened found ih) ?_
      exact (completes_terminated found .afterExpressionStatement).map Stmt.expression

theorem completes_program : Completes tokens whole room program := by
  have items : Completes tokens whole room programPart := by
    apply (Completes.atEnd found).bind
    intro ended
    split
    · exact .pure none
    · exact (Completes.recovering found (completes_declaration found)).map some
  rw [program_eq]
  exact (Completes.many itemAdvances_programPart items).bind fun results => .pure _

end Statements

/-- How a declaration is read or skipped at a position. It takes a token but no end of input, and
the counters are afterwards what they were; on the way they are never counted down to less. -/
structure MovesOn (tokens : List Token) (whole : Tokens) (before : Cursor)
    (result : Option Stmt) (after : Cursor) : Prop where
  proceeds : Proceeds tokens before.loopDepth before.functionDepth (recovering declaration) before
    (.ok result after)
  run_eq : recovering declaration (before.state whole) = .ok result (after.state whole)
  forward : before.position < after.position
  inside : after.position ≤ Tokens.firstEnd tokens
  loopDepth_eq : after.loopDepth = before.loopDepth
  functionDepth_eq : after.functionDepth = before.functionDepth

theorem exists_movesOn {before : Cursor}
    (more : before.position < Tokens.firstEnd tokens) :
    ∃ result after, MovesOn tokens whole before result after := by
  rw [← Tokens.length_body_eq found] at more
  have fits : before.Fits whole (whole.body.length + 1) before.loopDepth before.functionDepth :=
    ⟨by omega, Nat.le_of_lt more, Nat.le_refl _, Nat.le_refl _⟩
  rcases (Completes.recovering found (completes_declaration found)).outcome fits with
    ⟨⟨result, after⟩ | ⟨error, after⟩, arrives⟩
  · have nonempty : (before.state whole).rest ≠ [] := mt List.drop_eq_nil_iff.mp (by omega)
    have shorter := length_lt_of_recovering nonempty arrives.run_eq
    simp only [Cursor.state, List.length_drop] at shorter
    refine ⟨result, after, arrives.proceeds, arrives.run_eq, by omega, ?_, arrives.loopDepth_eq,
      arrives.functionDepth_eq⟩
    exact Tokens.length_body_eq found ▸ arrives.inside
  · obtain ⟨result, stopped, run⟩ := (total_recovering declaration).run (before.state whole)
    rw [arrives.run_eq] at run
    cases run

/-- Reading a program comes to the first end of input, with the counters where they began. -/
theorem proceeds_program :
    Proceeds tokens 0 0 program .start (.ok (parseProgram whole.body).1
      ⟨Tokens.firstEnd tokens, 0, 0, (parseProgram whole.body).2⟩) := by
  have fits : Cursor.start.Fits whole (whole.body.length + 1) 0 0 :=
    ⟨by simp [Cursor.start], Nat.zero_le _, Nat.le_refl 0, Nat.le_refl 0⟩
  rcases (completes_program found).outcome fits with ⟨outcome, arrives⟩
  have program_run : program (Cursor.start.state whole) =
      .ok (parseProgram whole.body).1 ⟨[], 0, 0, (parseProgram whole.body).2⟩ :=
    run_program_eq (.start whole.body) rfl rfl
  rw [arrives.run_eq] at program_run
  rcases outcome with ⟨statements, after⟩ | ⟨error, after⟩
  · injection program_run with statements_eq state_eq
    injection state_eq with rest_eq _ _ errors_eq
    have position_eq : after.position = Tokens.firstEnd tokens := by
      rw [← Tokens.length_body_eq found]
      exact Nat.le_antisymm arrives.inside (List.drop_eq_nil_iff.mp rest_eq)
    have after_eq : after = ⟨Tokens.firstEnd tokens, 0, 0, (parseProgram whole.body).2⟩ :=
      Cursor.ext position_eq arrives.loopDepth_eq arrives.functionDepth_eq errors_eq
    rw [← after_eq, ← statements_eq]
    exact arrives.proceeds
  · cases program_run

end

/-- A list that ends with an end of input is read without a token being looked for where there is
none, whatever its tokens are. A declaration takes a token wherever there is one before the first
end of input, and the counters are restored. -/
theorem progress_and_restoration {tokens : List Token} {last : Token}
    (last_eq : tokens.getLast? = some last) (ends : last.kind = .endOfInput) :
    ∃ whole, Tokens.ofList? tokens = some whole ∧
      Proceeds tokens 0 0 program .start (.ok (parseProgram whole.body).1
        ⟨Tokens.firstEnd tokens, 0, 0, (parseProgram whole.body).2⟩) ∧
      ∀ before : Cursor, before.position < Tokens.firstEnd tokens →
        ∃ result after, MovesOn tokens whole before result after := by
  rcases Tokens.exists_ofList? last_eq ends with ⟨whole, found⟩
  exact ⟨whole, found, proceeds_program found, fun _ more => exists_movesOn found more⟩

/-- A word that no statement starts with, in a loop in a function in a loop. -/
def nestedFault : List Token :=
  [(sample .whileWord).token, (sample .leftParen).token, (sample .identifier).token,
    (sample .rightParen).token, (sample .leftBrace).token, (sample .funWord).token,
    (sample .identifier).token, (sample .leftParen).token, (sample .rightParen).token,
    (sample .leftBrace).token, (sample .whileWord).token, (sample .leftParen).token,
    (sample .identifier).token, (sample .rightParen).token, (sample .classWord).token,
    .atEnd 1, (sample .rightBrace).token, .atEnd 1]

/-- The inner loop is skipped up to the end of input, where the blocks around it are faults too. -/
theorem progress_and_restoration_nested :
    nestedFault.getLast? = some (.atEnd 1) ∧ (Token.atEnd 1).kind = .endOfInput ∧
      ∃ whole, Tokens.ofList? nestedFault = some whole ∧
        (∃ errors : List SyntaxError, errors.length = 3 ∧
          Proceeds nestedFault 0 0 program .start (.ok [] ⟨15, 0, 0, errors⟩)) ∧
        ∃ result after, MovesOn nestedFault whole ⟨10, 0, 1, []⟩ result after := by
  have last_eq : nestedFault.getLast? = some (.atEnd 1) := rfl
  rcases progress_and_restoration last_eq rfl with ⟨whole, found, program_proceeds, moves_on⟩
  obtain rfl : ⟨nestedFault.take 15, .atEnd 1⟩ = whole := Option.some.inj found
  have nothing : (parseProgram (nestedFault.take 15)).1 = [] :=
    List.eq_nil_of_length_eq_zero (by decide +kernel)
  rw [nothing] at program_proceeds
  refine ⟨last_eq, rfl, _, found, ⟨_, ?_, program_proceeds⟩, moves_on ⟨10, 0, 1, []⟩ (by decide)⟩
  decide +kernel

end Scriptlet.Parser
