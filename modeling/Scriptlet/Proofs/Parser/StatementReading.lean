import Scriptlet.Proofs.Parser.ExpressionReading

/-!
# Statements are read as the grammar derives them

As for expressions, each reader gives only trees that the grammar derives from the tokens that were
read. Whatever a program is made of, it is read to its end and comes out of some derivation: the
declarations that fail are its skipped parts.
-/

namespace Scriptlet.Parser

open Grammar

variable {tolerated : Tolerance} {nested : Parser Stmt}

/-- A parser reads statements of a form, and never stops between an `if` and its `else`. -/
abbrev ReadsForm (tolerated : Tolerance) (parser : Parser Stmt) (form : Form) : Prop :=
  Reads tolerated parser fun surroundings tokens rest tree =>
    DerivesStmt tolerated form surroundings tokens tree ∧
      (tree.endsOpen = true → ∀ token ∈ rest.head?, token.kind ≠ .elseWord)

theorem reads_variableDeclaration :
    Reads tolerated variableDeclaration fun _ tokens _ declaration =>
      DerivesVariable tolerated tokens declaration := by
  refine ((reads_expect rfl).bind fun name =>
    reads_acceptKind_bind
      (fun _ => (reads_expression.map some).bind fun initializer =>
        (reads_expectSymbol .semicolon .afterVariableDeclaration).bind fun _ =>
          reads_pure (VariableDeclaration.mk name initializer))
      ((reads_expectSymbol .semicolon .afterVariableDeclaration).bind fun _ =>
        reads_pure (VariableDeclaration.mk name none))).mono ?_
  rintro surroundings tokens rest declaration
    ⟨name, left, right, rfl, rfl,
      ⟨equals, others, rfl, initializer, read, close, rfl, ⟨value, derives, rfl⟩, semicolon,
        last, nothing, rfl, rfl, rfl, rfl⟩ |
      ⟨_, semicolon, last, nothing, rfl, rfl, rfl, rfl⟩⟩
  · exact .initialized derives
  · exact .bare

theorem reads_terminated (place : SyntaxError.Place) :
    Reads tolerated (terminated place) fun _ tokens _ tree =>
      ∃ (inner : List Token) (semicolon : Token.OfKind .semicolon),
        tokens = inner ++ [semicolon.token] ∧ DerivesExpr tolerated .assignment inner tree := by
  refine (Reads.bind reads_expression fun value =>
    (reads_expectSymbol .semicolon place).bind fun _ => reads_pure value).mono ?_
  rintro surroundings tokens rest tree
    ⟨value, left, right, rfl, derives, semicolon, last, nothing, rfl, rfl, rfl, rfl⟩
  exact ⟨left, semicolon, rfl, derives⟩

theorem reads_condition (word : String) (place : SyntaxError.Place) :
    Reads tolerated (condition word place) fun _ tokens _ tree =>
      ∃ (leftParen : Token.OfKind .leftParen) (inner : List Token)
        (rightParen : Token.OfKind .rightParen),
        tokens = leftParen.token :: (inner ++ [rightParen.token]) ∧
          DerivesExpr tolerated .assignment inner tree := by
  refine ((reads_expectSymbol .leftParen (.afterWord word)).bind fun _ =>
    Reads.bind reads_expression fun value =>
      (reads_expectSymbol .rightParen place).bind fun _ => reads_pure value).mono ?_
  rintro surroundings tokens rest tree
    ⟨leftParen, left, right, rfl, rfl, value, read, close, rfl, derives, rightParen, last,
      nothing, rfl, rfl, rfl, rfl⟩
  exact ⟨leftParen, read, rightParen, rfl, derives⟩

theorem reads_optionalBefore (kind : Token.Kind) :
    Reads tolerated (optionalBefore kind) fun _ tokens _ tree =>
      DerivesOptional tolerated tokens tree := by
  refine (reads_check_bind (reads_pure none) (reads_expression.map some)).mono ?_
  rintro surroundings tokens rest tree (⟨_, rfl, rfl⟩ | ⟨_, value, derives, rfl⟩)
  · exact .absent
  · exact .present derives

theorem reads_forInitializer :
    Reads tolerated forInitializer fun _ tokens _ initializer =>
      DerivesInitializer tolerated tokens initializer := by
  refine (reads_acceptKind_bind (fun _ => reads_pure ForInitializer.absent)
    (reads_acceptKind_bind
      (fun _ => reads_variableDeclaration.map ForInitializer.declaration)
      ((reads_terminated .afterExpressionStatement).map ForInitializer.expression))).mono ?_
  rintro surroundings tokens rest initializer
    (⟨semicolon, others, rfl, rfl, rfl⟩ |
      ⟨_, ⟨keyword, others, rfl, declaration, derives, rfl⟩ |
        ⟨_, value, ⟨inner, semicolon, rfl, derives⟩, rfl⟩⟩)
  · exact .absent
  · exact .declaration derives
  · exact .expression derives

theorem reads_statementOnly (nested_reads : ReadsForm tolerated nested .declaration) :
    ReadsForm tolerated (statementOnly nested) .statement := by
  refine (reads_check_bind
    (reads_check_bind (reads_fail rfl) (reads_fail rfl))
    (reads_check_bind (reads_fail rfl) nested_reads)).mono ?_
  rintro surroundings tokens rest tree
    (⟨_, ⟨_, impossible⟩ | ⟨_, impossible⟩⟩ |
      ⟨noVariable, ⟨_, impossible⟩ | ⟨noFunction, derives, closed⟩⟩)
  · exact impossible.elim
  · exact impossible.elim
  · exact impossible.elim
  · refine ⟨derives.statement_of_declaration ?_, closed⟩
    rcases derives.exists_start with ⟨start, others, rfl, _⟩
    intro token token_mem
    exact ⟨noVariable token token_mem, noFunction token token_mem⟩

/-- What is read while tokens are left, and what is read when none is. -/
theorem reads_unlessAtEnd {α : Type} {ended more : Parser α}
    {hit miss : Surroundings → List Token → List Token → α → Prop}
    (ended_reads : Reads tolerated ended hit) (more_reads : Reads tolerated more miss) :
    Reads tolerated (atEnd >>= fun empty => if empty then ended else more)
      fun surroundings tokens rest result =>
        (tokens ++ rest = [] ∧ hit surroundings tokens rest result) ∨
        (tokens ++ rest ≠ [] ∧ miss surroundings tokens rest result) := by
  have branches (empty : Bool) :
      Reads tolerated (if empty then ended else more) (if empty = true then hit else miss) := by
    cases empty with
    | true => exact ended_reads
    | false => exact more_reads
  apply (reads_atEnd.bind branches).mono
  rintro surroundings tokens rest result ⟨empty, left, right, rfl, ⟨rfl, rfl⟩, holds⟩
  by_cases nothing : right ++ rest = []
  · rw [if_pos (by simpa using nothing)] at holds
    exact .inl ⟨nothing, holds⟩
  · rw [if_neg (by simpa using nothing)] at holds
    exact .inr ⟨nothing, holds⟩

/-- What a sequence of declarations reads: its parts, up to where a stopping condition holds. -/
def DescribesParts (tolerated : Tolerance) (surroundings : Surroundings) (tokens : List Token)
    (results : List (Option Stmt)) : Prop :=
  ∃ parts : List Part, parts.flatMap Prod.fst = tokens ∧ parts.map Prod.snd = results ∧
    (∀ part ∈ parts, ∀ statement ∈ part.2,
      DerivesStmt tolerated .declaration surroundings part.1 statement) ∧
    (∀ part ∈ parts, part.2 = none → Skips tolerated)

/-- A sequence of declarations reads its parts, given an item that stops or reads one of them. -/
theorem reads_parts {item : Parser (Option (Option Stmt))} {stops : List Token → Prop}
    (item_reads : Reads tolerated item fun surroundings tokens rest found =>
      (found = none ∧ tokens = [] ∧ stops rest) ∨
      (∃ result, found = some result ∧ tokens ≠ [] ∧
        (∀ statement ∈ result,
          DerivesStmt tolerated .declaration surroundings tokens statement) ∧
        (result = none → Skips tolerated))) :
    Reads tolerated (many item) fun surroundings tokens rest results =>
      DescribesParts tolerated surroundings tokens results ∧ (rest = [] ∨ stops rest) := by
  refine (reads_many item_reads ?_ ?_).mono ?_
  · rintro surroundings tokens rest result (⟨impossible, _⟩ | ⟨_, _, nonempty, _⟩)
    · cases impossible
    · exact nonempty
  · rintro surroundings tokens rest (⟨_, tokens_eq, _⟩ | ⟨_, impossible, _⟩)
    · exact tokens_eq
    · cases impossible
  · rintro surroundings tokens rest results ⟨parts, tokens_eq, results_eq, described, ended⟩
    have part_described : ∀ part ∈ parts,
        (∀ statement ∈ part.2,
          DerivesStmt tolerated .declaration surroundings part.1 statement) ∧
        (part.2 = none → Skips tolerated) := by
      intro part part_mem
      rcases described part part_mem with ⟨_, ⟨impossible, _⟩ | ⟨result, result_eq, _, derives⟩⟩
      · cases impossible
      · cases result_eq
        exact derives
    refine ⟨⟨parts, tokens_eq, results_eq, fun part part_mem => (part_described part part_mem).1,
      fun part part_mem => (part_described part part_mem).2⟩, ?_⟩
    rcases ended with ended | ⟨_, _, stopped⟩ | ⟨_, impossible, _⟩
    · exact .inl ended
    · exact .inr stopped
    · cases impossible

/-- A part of a sequence of declarations that is not at its end. -/
theorem reads_part (nested_reads : ReadsForm tolerated nested .declaration) :
    Reads tolerated (some <$> recovering nested) fun surroundings tokens rest found =>
      ∃ result, found = some result ∧ (tokens ++ rest ≠ [] → tokens ≠ []) ∧
        (∀ statement ∈ result,
          DerivesStmt tolerated .declaration surroundings tokens statement) ∧
        (result = none → Skips tolerated) := by
  refine ((reads_recovering nested_reads).map some).mono ?_
  rintro surroundings tokens rest found
    ⟨result, ⟨statement, rfl, derives, _⟩ | ⟨rfl, skips, progress⟩, rfl⟩
  · refine ⟨some statement, rfl, fun _ => derives.tokens_ne_nil, ?_, by simp⟩
    simpa using derives
  · refine ⟨none, rfl, ?_, by simp, fun _ => skips⟩
    rintro nonempty rfl
    exact nonempty (progress rfl)

/-- Reads a declaration in a block, if the block goes on. -/
def blockPart (nested : Parser Stmt) : Parser (Option (Option Stmt)) := do
  if (← check .rightBrace) || (← atEnd) then pure none else some <$> recovering nested

theorem block_eq (nested : Parser Stmt) :
    block nested = (many (blockPart nested) >>= fun results =>
      expectSymbol .rightBrace .afterBlock >>= fun _ => pure (results.filterMap id)) :=
  rfl

theorem reads_blockPart (nested_reads : ReadsForm tolerated nested .declaration) :
    Reads tolerated (blockPart nested) fun surroundings tokens _ found =>
      (found = none ∧ tokens = [] ∧ True) ∨
      (∃ result, found = some result ∧ tokens ≠ [] ∧
        (∀ statement ∈ result,
          DerivesStmt tolerated .declaration surroundings tokens statement) ∧
        (result = none → Skips tolerated)) := by
  refine (reads_check_bind
    (reads_atEnd.bind fun _ => reads_pure none)
    (reads_unlessAtEnd (reads_pure none) (reads_part nested_reads))).mono ?_
  rintro surroundings tokens rest found
    (⟨_, _, _, _, rfl, ⟨rfl, _⟩, rfl, rfl⟩ |
      ⟨_, ⟨_, rfl, rfl⟩ | ⟨nonempty, result, rfl, progress, derives, skips⟩⟩)
  · exact .inl ⟨rfl, rfl, trivial⟩
  · exact .inl ⟨rfl, rfl, trivial⟩
  · exact .inr ⟨result, rfl, progress nonempty, derives, skips⟩

theorem reads_block (nested_reads : ReadsForm tolerated nested .declaration) :
    Reads tolerated (block nested) fun surroundings tokens _ statements =>
      ∃ (parts : List Part) (rightBrace : Token.OfKind .rightBrace),
        tokens = parts.flatMap Prod.fst ++ [rightBrace.token] ∧
        parts.filterMap Prod.snd = statements ∧
        (∀ part ∈ parts, ∀ statement ∈ part.2,
          DerivesStmt tolerated .declaration surroundings part.1 statement) ∧
        (∀ part ∈ parts, part.2 = none → Skips tolerated) := by
  refine ((reads_parts (reads_blockPart nested_reads)).bind fun results =>
    (reads_expectSymbol .rightBrace .afterBlock).bind fun _ =>
      reads_pure (results.filterMap id)).mono ?_
  rintro surroundings tokens rest statements
    ⟨results, left, right, rfl, ⟨⟨parts, rfl, rfl, derive, skips⟩, _⟩, rightBrace, close, nothing,
      rfl, rfl, rfl, rfl⟩
  exact ⟨parts, rightBrace, by simp, by simp [List.filterMap_map], derive, skips⟩

theorem reads_ifStatement {statement : Parser Stmt}
    (statement_reads : ReadsForm tolerated statement .statement) :
    Reads tolerated (ifStatement statement) fun surroundings tokens rest tree =>
      (∀ keyword : Token.OfKind .ifWord,
        DerivesStmt tolerated .statement surroundings (keyword.token :: tokens) tree) ∧
        (tree.endsOpen = true → ∀ token ∈ rest.head?, token.kind ≠ .elseWord) := by
  refine ((reads_condition "if" .afterIfCondition).bind fun condition =>
    statement_reads.bind fun consequence =>
      reads_acceptKind_bind
        (fun _ => statement_reads.bind fun alternative =>
          reads_pure (Stmt.ifElse condition consequence alternative))
        (reads_pure (Stmt.ifThen condition consequence))).mono ?_
  rintro surroundings tokens rest tree
    ⟨condition, _, _, rfl, ⟨leftParen, inner, rightParen, rfl, condition_derives⟩,
      consequence, _, _, rfl, ⟨consequence_derives, closed⟩,
      ⟨elseWord, _, rfl, alternative, _, _, rfl, ⟨alternative_derives, last⟩, rfl, rfl⟩ |
        ⟨noElse, rfl, rfl⟩⟩
  · have consequence_closed : consequence.endsOpen = false := by
      cases ends : consequence.endsOpen with
      | false => rfl
      | true => exact absurd elseWord.kind_eq (closed ends _ rfl)
    refine ⟨fun keyword => ?_, last⟩
    simpa using
      DerivesStmt.ifElse condition_derives consequence_derives consequence_closed
        alternative_derives
  · refine ⟨fun keyword => ?_, fun _ => noElse⟩
    simpa using DerivesStmt.ifThen condition_derives consequence_derives

theorem reads_whileStatement {statement : Parser Stmt}
    (statement_reads : ReadsForm tolerated statement .statement) :
    Reads tolerated (whileStatement statement) fun surroundings tokens rest tree =>
      (∀ keyword : Token.OfKind .whileWord,
        DerivesStmt tolerated .statement surroundings (keyword.token :: tokens) tree) ∧
        (tree.endsOpen = true → ∀ token ∈ rest.head?, token.kind ≠ .elseWord) := by
  refine ((reads_condition "while" .afterWhileCondition).bind fun condition =>
    (reads_inLoop statement_reads).bind fun body =>
      reads_pure (Stmt.whileLoop condition body)).mono ?_
  rintro surroundings tokens rest tree
    ⟨condition, _, _, rfl, ⟨leftParen, inner, rightParen, rfl, condition_derives⟩,
      body, _, _, rfl, ⟨body_derives, closed⟩, rfl, rfl⟩
  refine ⟨fun keyword => ?_, closed⟩
  simpa using DerivesStmt.whileLoop condition_derives body_derives

theorem reads_forStatement {statement : Parser Stmt}
    (statement_reads : ReadsForm tolerated statement .statement) :
    Reads tolerated (forStatement statement) fun surroundings tokens rest tree =>
      (∀ keyword : Token.OfKind .forWord,
        DerivesStmt tolerated .statement surroundings (keyword.token :: tokens) tree) ∧
        (tree.endsOpen = true → ∀ token ∈ rest.head?, token.kind ≠ .elseWord) := by
  refine ((reads_expectSymbol .leftParen (.afterWord "for")).bind fun _ =>
    reads_forInitializer.bind fun initializer =>
      (reads_optionalBefore .semicolon).bind fun condition =>
        (reads_expectSymbol .semicolon .afterLoopCondition).bind fun _ =>
          (reads_optionalBefore .rightParen).bind fun increment =>
            (reads_expectSymbol .rightParen .afterForClauses).bind fun _ =>
              (reads_inLoop statement_reads).bind fun body =>
                reads_pure (Stmt.forLoop initializer condition increment body)).mono ?_
  rintro surroundings tokens rest tree
    ⟨leftParen, _, _, rfl, rfl, initializer, _, _, rfl, initializer_derives,
      condition, _, _, rfl, condition_derives, semicolon, _, _, rfl, rfl,
      increment, _, _, rfl, increment_derives, rightParen, _, _, rfl, rfl,
      body, _, _, rfl, ⟨body_derives, closed⟩, rfl, rfl⟩
  refine ⟨fun keyword => ?_, closed⟩
  simpa using
    DerivesStmt.forLoop initializer_derives condition_derives increment_derives body_derives

theorem reads_jumpStatement (keyword : Token) (jump : Stmt) :
    Reads tolerated (jumpStatement keyword jump) fun surroundings tokens _ tree =>
      ∃ semicolon : Token.OfKind .semicolon, tokens = [semicolon.token] ∧ tree = jump ∧
        (surroundings.inLoop = true ∨ tolerated (.jumpOutsideLoop keyword.lexeme)) := by
  have ended : Reads tolerated
      (expectSymbol .semicolon (.afterWord keyword.lexeme) >>= fun _ => pure jump) _ :=
    (reads_expectSymbol .semicolon (.afterWord keyword.lexeme)).bind fun _ => reads_pure jump
  have placed (state : State) : Reads tolerated
      (do
        if state.loopDepth = 0 then
          report ⟨.jumpOutsideLoop keyword.lexeme, some keyword⟩
        let _ ← expectSymbol .semicolon (.afterWord keyword.lexeme)
        pure jump)
      fun _ tokens _ tree =>
        ∃ semicolon : Token.OfKind .semicolon, tokens = [semicolon.token] ∧ tree = jump ∧
          (state.surroundings.inLoop = true ∨
            tolerated (.jumpOutsideLoop keyword.lexeme)) := by
    by_cases outside : state.loopDepth = 0
    · simp only [outside, if_true]
      apply ((reads_report _).bind fun _ => ended).mono
      rintro surroundings tokens rest tree
        ⟨_, _, _, rfl, ⟨rfl, allowed⟩, semicolon, _, _, rfl, rfl, rfl, rfl⟩
      exact ⟨semicolon, rfl, rfl, .inr allowed⟩
    · simp only [outside, if_false]
      apply ended.mono
      rintro surroundings tokens rest tree ⟨semicolon, _, _, rfl, rfl, rfl, rfl⟩
      exact ⟨semicolon, rfl, rfl, .inl (by simpa [State.surroundings] using Nat.pos_of_ne_zero outside)⟩
  apply (reads_get_bind placed).mono
  rintro surroundings tokens rest tree ⟨state, rfl, holds⟩
  exact holds

theorem reads_returnStatement (keyword : Token) :
    Reads tolerated (returnStatement keyword) fun surroundings tokens _ tree =>
      (∀ known : Token.OfKind .returnWord, known.token = keyword →
        DerivesStmt tolerated .statement surroundings (keyword :: tokens) tree) ∧
        tree.endsOpen = false := by
  have ended : Reads tolerated
      (optionalBefore .semicolon >>= fun value =>
        expectSymbol .semicolon .afterReturnValue >>= fun _ => pure (Stmt.returnValue value)) _ :=
    (reads_optionalBefore .semicolon).bind fun value =>
      (reads_expectSymbol .semicolon .afterReturnValue).bind fun _ =>
        reads_pure (Stmt.returnValue value)
  have placed (state : State) : Reads tolerated
      (do
        if state.functionDepth = 0 then report ⟨.returnOutsideFunction, some keyword⟩
        let value ← optionalBefore .semicolon
        let _ ← expectSymbol .semicolon .afterReturnValue
        pure (Stmt.returnValue value))
      fun _ tokens _ tree =>
        ∃ (value : Option Expr) (inner : List Token) (semicolon : Token.OfKind .semicolon),
          tokens = inner ++ [semicolon.token] ∧ tree = .returnValue value ∧
          DerivesOptional tolerated inner value ∧
          (state.surroundings.inFunction = true ∨ tolerated .returnOutsideFunction) := by
    by_cases outside : state.functionDepth = 0
    · simp only [outside, if_true]
      apply ((reads_report _).bind fun _ => ended).mono
      rintro surroundings tokens rest tree
        ⟨_, _, _, rfl, ⟨rfl, allowed⟩, value, inner, _, rfl, derives, semicolon, _, _, rfl, rfl,
          rfl, rfl⟩
      exact ⟨value, inner, semicolon, rfl, rfl, derives, .inr allowed⟩
    · simp only [outside, if_false]
      apply ended.mono
      rintro surroundings tokens rest tree
        ⟨value, inner, _, rfl, derives, semicolon, _, _, rfl, rfl, rfl, rfl⟩
      exact ⟨value, inner, semicolon, rfl, rfl, derives,
        .inl (by simpa [State.surroundings] using Nat.pos_of_ne_zero outside)⟩
  apply (reads_get_bind placed).mono
  rintro surroundings tokens rest tree
    ⟨state, rfl, value, inner, semicolon, rfl, rfl, derives, allowed⟩
  refine ⟨?_, rfl⟩
  rintro known rfl
  exact .returnValue allowed derives

theorem reads_functionDeclaration
    (nested_reads : ReadsForm tolerated nested .declaration) :
    Reads tolerated (functionDeclaration (block nested)) fun surroundings tokens _ tree =>
      (∀ keyword : Token.OfKind .funWord,
        DerivesStmt tolerated .declaration surroundings (keyword.token :: tokens) tree) ∧
        tree.endsOpen = false := by
  refine ((reads_expect rfl).bind fun name =>
    (reads_expectSymbol .leftParen (.afterFunctionName)).bind fun _ =>
      (reads_closedList (reads_expect rfl) .afterParameters).bind fun parameters =>
        (reads_expectSymbol .leftBrace .beforeFunctionBody).bind fun _ =>
          (reads_inFunction (reads_block nested_reads)).bind fun body =>
            reads_pure (Stmt.declareFunction name parameters.1 body)).mono ?_
  rintro surroundings tokens rest tree
    ⟨name, _, _, rfl, rfl, leftParen, _, _, rfl, rfl, ⟨parameters, rightParen⟩, _, _, rfl,
      ⟨pieces, inner, rfl, separated, rfl, single, few⟩, leftBrace, _, _, rfl, rfl,
      body, _, _, rfl, ⟨parts, rightBrace, rfl, rfl, derive, skips⟩, rfl, rfl⟩
  have tokens_eq : pieces.map Prod.fst =
      (pieces.map Prod.snd).map fun parameter => [parameter.token] := by
    rw [List.map_map]
    apply List.map_congr_left
    intro piece piece_mem
    rcases single piece piece_mem with ⟨_, piece_eq⟩
    exact piece_eq
  rw [tokens_eq] at separated
  have fewNames : (pieces.map Prod.snd).length ≤ maxArity ∨ tolerated .tooManyParameters := by
    simpa using few
  refine ⟨fun keyword => ?_, rfl⟩
  simpa using DerivesStmt.declareFunction separated fewNames derive skips

/-- What an opening says about the token that it was made of. -/
def Opening.IsOf (token : Token) : Opening → Prop
  | .varWord => ∃ keyword : Token.OfKind .varWord, keyword.token = token
  | .funWord => ∃ keyword : Token.OfKind .funWord, keyword.token = token
  | .print keyword => keyword.token = token
  | .sleep keyword => keyword.token = token
  | .ifWord => ∃ keyword : Token.OfKind .ifWord, keyword.token = token
  | .whileWord => ∃ keyword : Token.OfKind .whileWord, keyword.token = token
  | .forWord => ∃ keyword : Token.OfKind .forWord, keyword.token = token
  | .returnWord keyword => keyword = token ∧ token.kind = .returnWord
  | .breakWord keyword => keyword = token ∧ token.kind = .breakWord
  | .continueWord keyword => keyword = token ∧ token.kind = .continueWord
  | .leftBrace => ∃ symbol : Token.OfKind .leftBrace, symbol.token = token

theorem Opening.isOf_of_of? {token : Token} {opening : Opening}
    (opens : Opening.of? token = some opening) : opening.IsOf token := by
  revert opens
  unfold Opening.of?
  split
  all_goals
    rename_i kind_eq
    intro opens
    cases opens
  all_goals first
    | exact ⟨⟨token, kind_eq⟩, rfl⟩
    | exact ⟨rfl, kind_eq⟩
    | rfl

theorem reads_opened (nested_reads : ReadsForm tolerated nested .declaration)
    (opening : Opening) :
    Reads tolerated (opened nested opening) fun surroundings tokens rest tree =>
      ∀ token, opening.IsOf token →
        DerivesStmt tolerated .declaration surroundings (token :: tokens) tree ∧
          (tree.endsOpen = true → ∀ next ∈ rest.head?, next.kind ≠ .elseWord) := by
  have statement_reads := reads_statementOnly nested_reads
  cases opening with
  | varWord =>
      apply (reads_variableDeclaration.map Stmt.declareVariable).mono
      rintro surroundings tokens rest tree ⟨declaration, derives, rfl⟩ token ⟨keyword, rfl⟩
      exact ⟨.declareVariable derives, by simp [Stmt.endsOpen]⟩
  | funWord =>
      apply (reads_functionDeclaration nested_reads).mono
      rintro surroundings tokens rest tree ⟨derives, ends⟩ token ⟨keyword, rfl⟩
      exact ⟨derives keyword, by simp [ends]⟩
  | print keyword =>
      apply ((reads_terminated .afterPrintedValue).map (Stmt.print keyword)).mono
      rintro surroundings tokens rest tree
        ⟨value, ⟨inner, semicolon, rfl, derives⟩, rfl⟩ token rfl
      exact ⟨.undeclared (.print derives), by simp [Stmt.endsOpen]⟩
  | sleep keyword =>
      apply ((reads_terminated .afterSleepDuration).map (Stmt.sleep keyword)).mono
      rintro surroundings tokens rest tree
        ⟨value, ⟨inner, semicolon, rfl, derives⟩, rfl⟩ token rfl
      exact ⟨.undeclared (.sleep derives), by simp [Stmt.endsOpen]⟩
  | ifWord =>
      apply (reads_ifStatement statement_reads).mono
      rintro surroundings tokens rest tree ⟨derives, closed⟩ token ⟨keyword, rfl⟩
      exact ⟨.undeclared (derives keyword), closed⟩
  | whileWord =>
      apply (reads_whileStatement statement_reads).mono
      rintro surroundings tokens rest tree ⟨derives, closed⟩ token ⟨keyword, rfl⟩
      exact ⟨.undeclared (derives keyword), closed⟩
  | forWord =>
      apply (reads_forStatement statement_reads).mono
      rintro surroundings tokens rest tree ⟨derives, closed⟩ token ⟨keyword, rfl⟩
      exact ⟨.undeclared (derives keyword), closed⟩
  | returnWord keyword =>
      apply (reads_returnStatement keyword).mono
      rintro surroundings tokens rest tree ⟨derives, ends⟩ token ⟨rfl, kind_eq⟩
      exact ⟨.undeclared (derives ⟨keyword, kind_eq⟩ rfl), by simp [ends]⟩
  | breakWord keyword =>
      apply (reads_jumpStatement keyword .breakLoop).mono
      rintro surroundings tokens rest tree
        ⟨semicolon, rfl, rfl, placed⟩ token ⟨rfl, kind_eq⟩
      let known : Token.OfKind .breakWord := ⟨keyword, kind_eq⟩
      have derives : DerivesStmt tolerated .statement surroundings
          [known.token, semicolon.token] .breakLoop := .breakLoop placed
      exact ⟨.undeclared derives, by simp [Stmt.endsOpen]⟩
  | continueWord keyword =>
      apply (reads_jumpStatement keyword .continueLoop).mono
      rintro surroundings tokens rest tree
        ⟨semicolon, rfl, rfl, placed⟩ token ⟨rfl, kind_eq⟩
      let known : Token.OfKind .continueWord := ⟨keyword, kind_eq⟩
      have derives : DerivesStmt tolerated .statement surroundings
          [known.token, semicolon.token] .continueLoop := .continueLoop placed
      exact ⟨.undeclared derives, by simp [Stmt.endsOpen]⟩
  | leftBrace =>
      apply ((reads_block nested_reads).map Stmt.block).mono
      rintro surroundings tokens rest tree
        ⟨statements, ⟨parts, rightBrace, rfl, rfl, derive, skips⟩, rfl⟩ token ⟨symbol, rfl⟩
      exact ⟨.undeclared (.block derive skips), by simp [Stmt.endsOpen]⟩

theorem reads_declarationForm (nested_reads : ReadsForm tolerated nested .declaration) :
    ReadsForm tolerated (declarationForm nested) .declaration := by
  refine (reads_accept_bind (reads_opened nested_reads)
    ((reads_terminated .afterExpressionStatement).map Stmt.expression)).mono ?_
  rintro surroundings tokens rest tree
    (⟨token, opening, others, rfl, opens, derives⟩ |
      ⟨_, value, ⟨inner, semicolon, rfl, derives⟩, rfl⟩)
  · exact derives token (Opening.isOf_of_of? opens)
  · exact ⟨.undeclared (.expression derives), by simp [Stmt.endsOpen]⟩

theorem reads_declarationWithin (bound : List Token) :
    ReadsForm tolerated (declarationWithin bound) .declaration := by
  induction bound with
  | nil => exact (reads_fail rfl).mono fun _ _ _ _ impossible => impossible.elim
  | cons _ bound ih => exact reads_declarationForm ih

theorem reads_declaration : ReadsForm tolerated declaration .declaration := by
  apply (reads_get_bind fun before => reads_declarationWithin before.rest).mono
  rintro surroundings tokens rest tree ⟨_, _, derives⟩
  exact derives

/-- Reads a declaration of a program, if the program goes on. -/
def programPart : Parser (Option (Option Stmt)) := do
  if ← atEnd then pure none else some <$> recovering declaration

theorem program_eq :
    program = (many programPart >>= fun results => pure (results.filterMap id)) :=
  rfl

theorem reads_programPart :
    Reads tolerated programPart fun surroundings tokens rest found =>
      (found = none ∧ tokens = [] ∧ rest = []) ∨
      (∃ result, found = some result ∧ tokens ≠ [] ∧
        (∀ statement ∈ result,
          DerivesStmt tolerated .declaration surroundings tokens statement) ∧
        (result = none → Skips tolerated)) := by
  refine (reads_unlessAtEnd (reads_pure none) (reads_part reads_declaration)).mono ?_
  rintro surroundings tokens rest found
    (⟨ended, rfl, rfl⟩ | ⟨nonempty, result, rfl, progress, derives, skips⟩)
  · exact .inl ⟨rfl, rfl, ended⟩
  · exact .inr ⟨result, rfl, progress nonempty, derives, skips⟩

/-- Reading a program reads all its tokens. -/
theorem reads_program :
    Reads tolerated program fun surroundings tokens rest statements =>
      surroundings = ⟨false, false⟩ → rest = [] ∧ DerivesProgram tolerated tokens statements := by
  refine ((reads_parts reads_programPart).bind fun results => reads_pure (results.filterMap id)).mono ?_
  rintro surroundings tokens rest statements
    ⟨results, left, right, rfl, ⟨⟨parts, rfl, rfl, derive, skips⟩, ended⟩, rfl, rfl⟩ rfl
  refine ⟨by simpa using ended, parts, derive, skips, by simp, ?_⟩
  simp [List.filterMap_map]

/-- What is made of a sequence of tokens comes out of some derivation for which the reported
errors are no surprise. A sequence that no program is made of would be skipped as a whole. -/
theorem derivesProgram_parseProgram {tokens : List Token}
    (all : ∀ error ∈ (parseProgram tokens).2, tolerated error.cause) :
    DerivesProgram tolerated tokens (parseProgram tokens).1 := by
  cases program_run : program (.start tokens) with
  | ok statements after =>
      simp only [parseProgram, run, program_run] at all ⊢
      rcases reads_program.described_of_ok program_run all with ⟨read, rest_eq, derives⟩
      rcases derives (by simp [State.surroundings, State.start]) with ⟨rest_nil, derives⟩
      rw [rest_nil, List.append_nil] at rest_eq
      rwa [← rest_eq] at derives
  | error error after =>
      simp only [parseProgram, run, program_run] at all ⊢
      have fatal := (@reads_program tolerated).fatal_of_error program_run
      refine ⟨[(tokens, none)], by simp, ?_, by simp, by simp⟩
      intro _ _ _
      exact ⟨error.cause, fatal, all error (by simp)⟩

end Scriptlet.Parser
