import Scriptlet.Proofs.Parser.Unrolling

/-!
# Readers of trees call themselves

An expression is read as an assignment with expressions nested in it, and a declaration as one of
the declaration forms with declarations nested in it. The bounds on nesting are gone from these
equations: a nested tree is read where fewer tokens are left, and there the bounds agree.
-/

namespace Scriptlet.Parser

open Grammar

variable {α β : Type} {room : Nat}

/-- Without tokens, a reader misses an expression. -/
def FailsAtEnd (reader : Parser α) : Prop :=
  ∀ state : State, state.rest = [] → reader state = .error ⟨.missingExpression, none⟩ state

theorem failsAtEnd_fail : FailsAtEnd (fail .missingExpression : Parser α) := by
  intro state ended
  simp [fail, ended]

theorem FailsAtEnd.bind {reader : Parser α} (fails : FailsAtEnd reader) (next : α → Parser β) :
    FailsAtEnd (reader >>= next) :=
  fun state ended => bind_of_error (fails state ended)

theorem FailsAtEnd.after_accept {γ : Type} {classify : Token → Option γ}
    {next : Option γ → Parser α} (fails : FailsAtEnd (next none)) :
    FailsAtEnd (accept classify >>= next) := by
  intro state ended
  rw [bind_of_ok (accept_nil ended)]
  exact fails state ended

/-- A reader that is bounded by the tokens left, and whose nested trees come after a token, is its
own form: with itself for the nested trees. -/
theorem eq_form_of_within {within : List Token → Parser α} {form : Parser α → Parser α}
    (within_cons : ∀ token bound, within (token :: bound) = form (within bound))
    (ended : ∀ bound, FailsAtEnd (within bound))
    (nests : ∀ {room : Nat} {nested other : Parser α}, Agree room nested other →
      Agree (room + 1) (form nested) (form other)) :
    (fun state => within state.rest state) = form fun state => within state.rest state := by
  have agree {room : Nat} {bound other : List Token} (enough : room ≤ bound.length)
      (also : room ≤ other.length) : Agree room (within bound) (within other) := by
    induction room generalizing bound other with
    | zero =>
        intro state small
        have nothing := List.eq_nil_of_length_eq_zero (Nat.le_zero.mp small)
        have failed := ended bound state nothing
        rw [stop_of_error failed, failed, ended other state nothing]
        exact ⟨rfl, Nat.le_refl _⟩
    | succ room ih =>
        cases bound with
        | nil => cases enough
        | cons token bound =>
            cases other with
            | nil => cases also
            | cons otherToken other =>
                rw [within_cons, within_cons]
                exact nests (ih (Nat.le_of_succ_le_succ enough) (Nat.le_of_succ_le_succ also))
  funext state
  have bounded : Agree state.rest.length (fun inner => within inner.rest inner)
      (within state.rest) :=
    fun inner small => agree (Nat.le_refl inner.rest.length) small inner (Nat.le_refl _)
  rw [(nests bounded state (Nat.le_succ _)).1, ← within_cons (.atEnd 0)]
  exact (agree (Nat.le_refl _) (Nat.le_succ _) state (Nat.le_refl _)).1

section Expressions

variable {nested other : Parser Expr}

theorem agree_primary (trees : Agree room nested other) :
    Agree (room + 1) (primary nested) (primary other) := by
  refine agree_accept_bind (fun value => agree_pure _) ?_
  refine agree_accept_bind (fun name => agree_pure _) ?_
  refine agree_accept_bind (fun _ => ?_) (agree_self (reads_fail rfl))
  apply trees.bind
  intro inner
  exact (agree_expectSymbol .rightParen .afterGrouping).bind fun _ =>
    agree_pure (Expr.grouping inner)

theorem agree_call (trees : Agree room nested other) :
    Agree (room + 1) (call nested) (call other) := by
  apply (agree_primary trees).bind
  intro callee
  apply agree_loop
  intro callee
  refine agree_accept_bind (fun _ => ?_) (agree_pure none)
  have called : Agree room (finishCall nested callee) (finishCall other callee) :=
    (agree_closedList .tooManyArguments .afterArguments trees).bind fun result =>
      agree_pure (Expr.call callee result.2 result.1)
  exact called.bind fun tree => agree_pure (some tree)

theorem agree_unary (trees : Agree room nested other) :
    Agree (room + 1) (unary nested) (unary other) := by
  apply (agree_many (agree_self (reads_accept _))).bind
  intro operators
  exact (agree_call trees).bind fun operand => agree_pure (operators.foldr .unary operand)

theorem agree_leftAssociative {Operation : Type} {operator? : Token → Option Operation}
    {join : Expr → Operation → Expr → Expr} (operands : Agree room nested other) :
    Agree room (leftAssociative operator? join nested) (leftAssociative operator? join other) := by
  apply operands.bind
  intro first
  apply agree_loop
  intro left
  apply (agree_self (reads_accept operator?)).bind
  rintro (_ | operation)
  · exact agree_pure none
  · exact operands.bind fun right => agree_pure (some (join left operation right))

theorem agree_binary (operands : Agree room nested other) (levels : List (List BinaryOperator)) :
    Agree room (binary nested levels) (binary other levels) := by
  induction levels with
  | nil => exact operands
  | cons operators tighter ih => exact agree_leftAssociative ih

theorem agree_assignment (trees : Agree room nested other) :
    Agree (room + 1) (assignment nested) (assignment other) := by
  have disjunctions : Agree (room + 1) (disjunction nested) (disjunction other) :=
    agree_leftAssociative (agree_leftAssociative (agree_binary (agree_unary trees) binaryLevels))
  apply disjunctions.bind
  intro target
  refine agree_accept_bind (fun equals => ?_) (agree_pure target)
  exact trees.bind fun value => agree_self (reads_assigned target equals value)

theorem failsAtEnd_assignment (nested : Parser Expr) : FailsAtEnd (assignment nested) := by
  have primary_fails : FailsAtEnd (primary nested) :=
    .after_accept (.after_accept (.after_accept failsAtEnd_fail))
  have unary_fails : FailsAtEnd (unary nested) := by
    intro state ended
    have no_operators : many (accept (Operator.of? UnaryOperator.kind · unaryOperators)) state
        = .ok [] state := by
      have looped : loop (collect (accept (Operator.of? UnaryOperator.kind · unaryOperators))) []
          state = .ok [] state := by
        rw [loop, ended, iterate]
        rfl
      rw [many_eq_loop, bind_of_ok looped]
      rfl
    rw [unary, bind_of_ok no_operators]
    exact ((primary_fails.bind _).bind _) state ended
  have binary_fails (levels : List (List BinaryOperator)) :
      FailsAtEnd (binary (unary nested) levels) := by
    induction levels with
    | nil => exact unary_fails
    | cons operators tighter ih => exact ih.bind _
  exact (((binary_fails binaryLevels).bind _).bind _).bind _

theorem failsAtEnd_expressionWithin (bound : List Token) :
    FailsAtEnd (expressionWithin bound) := by
  cases bound with
  | nil => exact failsAtEnd_fail
  | cons _ bound => exact failsAtEnd_assignment (expressionWithin bound)

/-- An expression is an assignment with expressions nested in it. -/
theorem expression_eq : expression = assignment expression :=
  eq_form_of_within (fun _ _ => rfl) failsAtEnd_expressionWithin agree_assignment

end Expressions

section Statements

variable {nested other : Parser Stmt}

theorem agree_statementOnly (statements : Agree room nested other) :
    Agree room (statementOnly nested) (statementOnly other) := by
  apply (agree_self (reads_check .varWord)).bind
  intro variable_next
  apply (agree_self (reads_check .funWord)).bind
  intro function_next
  split
  · exact agree_self (reads_fail rfl)
  · exact statements

theorem agree_block (parts : Agree room nested other) :
    Agree room (block nested) (block other) := by
  have items : Agree room
      (do if (← check .rightBrace) || (← atEnd) then pure none else some <$> recovering nested)
      (do if (← check .rightBrace) || (← atEnd) then pure none else some <$> recovering other) := by
    apply (agree_self (reads_check .rightBrace)).bind
    intro closed
    apply (agree_self reads_atEnd).bind
    intro ended
    split
    · exact agree_pure none
    · exact (agree_recovering parts).map some
  apply (agree_many items).bind
  intro results
  exact (agree_expectSymbol .rightBrace .afterBlock).bind fun _ =>
    agree_pure (results.filterMap id)

theorem agree_ifStatement (statements : Agree room nested other) :
    Agree room (ifStatement nested) (ifStatement other) := by
  apply (agree_self (reads_condition "if" .afterIfCondition)).bind
  intro condition
  apply statements.bind
  intro consequence
  apply (agree_self (reads_accept _)).bind
  rintro (_ | elseWord)
  · exact agree_pure _
  · exact statements.bind fun alternative =>
      agree_pure (Stmt.ifElse condition consequence alternative)

theorem agree_whileStatement (statements : Agree room nested other) :
    Agree room (whileStatement nested) (whileStatement other) := by
  apply (agree_self (reads_condition "while" .afterWhileCondition)).bind
  intro condition
  exact (agree_inLoop statements).bind fun body => agree_pure (Stmt.whileLoop condition body)

theorem agree_forStatement (statements : Agree room nested other) :
    Agree room (forStatement nested) (forStatement other) := by
  apply (agree_expectSymbol .leftParen (.afterWord "for")).bind
  intro _
  apply (agree_self reads_forInitializer).bind
  intro initializer
  apply (agree_self (reads_optionalBefore .semicolon)).bind
  intro condition
  apply (agree_expectSymbol .semicolon .afterLoopCondition).bind
  intro _
  apply (agree_self (reads_optionalBefore .rightParen)).bind
  intro increment
  apply (agree_expectSymbol .rightParen .afterForClauses).bind
  intro _
  exact (agree_inLoop statements).bind fun body =>
    agree_pure (Stmt.forLoop initializer condition increment body)

theorem agree_functionDeclaration (parts : Agree room nested other) :
    Agree room (functionDeclaration (block nested)) (functionDeclaration (block other)) := by
  apply (agree_self (reads_expect rfl)).bind
  intro name
  apply (agree_expectSymbol .leftParen .afterFunctionName).bind
  intro _
  apply (agree_closedList .tooManyParameters .afterParameters (agree_self (reads_expect rfl))).bind
  intro parameters
  apply (agree_expectSymbol .leftBrace .beforeFunctionBody).bind
  intro _
  exact (agree_inFunction (agree_block parts)).bind fun body =>
    agree_pure (Stmt.declareFunction name parameters.1 body)

theorem agree_opened (parts : Agree room nested other) (opening : Opening) :
    Agree room (opened nested opening) (opened other opening) := by
  have statements := agree_statementOnly parts
  cases opening with
  | varWord => exact (agree_self reads_variableDeclaration).map Stmt.declareVariable
  | funWord => exact agree_functionDeclaration parts
  | print keyword =>
      exact (agree_self (reads_terminated .afterPrintedValue)).map (Stmt.print keyword)
  | sleep keyword =>
      exact (agree_self (reads_terminated .afterSleepDuration)).map (Stmt.sleep keyword)
  | ifWord => exact agree_ifStatement statements
  | whileWord => exact agree_whileStatement statements
  | forWord => exact agree_forStatement statements
  | returnWord keyword => exact agree_self (reads_returnStatement keyword)
  | breakWord keyword => exact agree_self (reads_jumpStatement keyword .breakLoop)
  | continueWord keyword => exact agree_self (reads_jumpStatement keyword .continueLoop)
  | leftBrace => exact (agree_block parts).map Stmt.block

theorem agree_declarationForm (parts : Agree room nested other) :
    Agree (room + 1) (declarationForm nested) (declarationForm other) := by
  refine agree_accept_bind (agree_opened parts) ?_
  exact (agree_self (reads_terminated .afterExpressionStatement)).map Stmt.expression

theorem failsAtEnd_declarationWithin (bound : List Token) :
    FailsAtEnd (declarationWithin bound) := by
  cases bound with
  | nil => exact failsAtEnd_fail
  | cons _ bound =>
      have expression_fails : FailsAtEnd expression :=
        fun state ended => failsAtEnd_expressionWithin state.rest state ended
      apply FailsAtEnd.after_accept
      rw [map_eq_pure_bind]
      exact (expression_fails.bind _).bind _

/-- A declaration has one of the forms, with declarations nested in it. -/
theorem declaration_eq : declaration = declarationForm declaration :=
  eq_form_of_within (fun _ _ => rfl) failsAtEnd_declarationWithin agree_declarationForm

end Statements

end Scriptlet.Parser
