import Scriptlet.Proofs.Parser.ExpressionPrediction
import Scriptlet.Proofs.Parser.Recognition

/-!
# Statements are foreseen

As for expressions, the first fault in a statement comes where the tokens before could still have
gone on to a statement. Behind a statement, only an `else` matters.
-/

namespace Scriptlet.Parser

open Grammar

variable {tolerated : Tolerance} {room : Nat} {nested : Parser Stmt}

instance : Nonempty Expr :=
  ⟨.literal .nil⟩

instance : Nonempty ForInitializer :=
  ⟨.absent⟩

instance : Nonempty Stmt :=
  ⟨.breakLoop⟩

/-- The tokens of expressions. -/
def Language.expression (tolerated : Tolerance) : Language := fun _ tokens =>
  DerivableExpr tolerated .assignment tokens

theorem derivableExpr_name (name : Name) : DerivableExpr tolerated .assignment [name.token] := by
  have reference : DerivesExpr tolerated .primary [name.token] (.reference name) := .reference
  have called : DerivesExpr tolerated .call [name.token] (.reference name) := by
    simpa using DerivesExpr.call reference .callsEnd
  have alone {level : Level} (operand : DerivesExpr tolerated level.operand [name.token]
      (.reference name)) : DerivesExpr tolerated (.level level) [name.token] (.reference name) := by
    simpa using DerivesExpr.level operand .chainEnd
  have product : DerivesExpr tolerated (.level .product) [name.token] (.reference name) :=
    alone (.operand called)
  have sum : DerivesExpr tolerated (.level .sum) [name.token] (.reference name) := alone product
  have comparison : DerivesExpr tolerated (.level .comparison) [name.token] (.reference name) :=
    alone sum
  have equality : DerivesExpr tolerated (.level .equality) [name.token] (.reference name) :=
    alone comparison
  have conjunction : DerivesExpr tolerated (.level .conjunction) [name.token] (.reference name) :=
    alone equality
  exact ⟨_, .unassigned (alone conjunction)⟩

theorem recognizes_expression (lax : Lax tolerated) :
    Recognizes room tolerated .anything expression (.expression tolerated) where
  reads := reads_expression.mono fun _ _ _ tree derives => ⟨tree, derives⟩
  foresees := foresees_expression lax
  inhabited _ := ⟨_, derivableExpr_name (sample .identifier)⟩

section Clauses

variable {lookahead : Lookahead}

theorem eats_symbol {α : Type} (kind : Token.Kind) (place : SyntaxError.Place) (value : α) :
    Eats (expectSymbol kind place >>= fun _ => pure value) :=
  (eats_expect kind _).bind_pure fun _ => value

theorem recognizes_symbol {α : Type} {kind : Token.Kind} (place : SyntaxError.Place)
    (named : kind ≠ .elseWord) (value : α) :
    Recognizes room tolerated lookahead (expectSymbol kind place >>= fun _ => pure value)
      (.single kind) :=
  (recognizes_expectSymbol place named).bind_pure fun _ => value

/-- The tokens of expressions with a token behind them. -/
def Language.ended (tolerated : Tolerance) (kind : Token.Kind) : Language :=
  (Language.expression tolerated).Then (.single kind)

theorem recognizes_terminated (lax : Lax tolerated) (place : SyntaxError.Place) :
    Recognizes room tolerated lookahead (terminated place) (.ended tolerated .semicolon) :=
  (recognizes_expression lax).bind_eats (recognizes_symbol place (by decide))
    (eats_symbol .semicolon place)

theorem recognizes_condition (lax : Lax tolerated) (word : String) (place : SyntaxError.Place) :
    Recognizes room tolerated lookahead (condition word place)
      ((Language.single .leftParen).Then (.ended tolerated .rightParen)) :=
  (recognizes_expectSymbol (.afterWord word) (by decide)).bind fun _ =>
    (recognizes_expression lax).bind_eats (recognizes_symbol place (by decide))
      (eats_symbol .rightParen place)

theorem recognizes_variableDeclaration (lax : Lax tolerated) :
    Recognizes room tolerated lookahead variableDeclaration fun _ tokens =>
      ∃ declaration, DerivesVariable tolerated tokens declaration := by
  have close (declaration : VariableDeclaration) := eats_symbol .semicolon
    .afterVariableDeclaration declaration
  have read : Recognizes room tolerated lookahead variableDeclaration _ :=
    (recognizes_expect rfl (by decide)).bind fun name => recognizes_acceptKind_bind
      (fun _ => ((recognizes_expression lax).map some).bind_eats
        (fun initializer => recognizes_symbol .afterVariableDeclaration (by decide)
          (VariableDeclaration.mk name initializer))
        fun initializer => close ⟨name, initializer⟩)
      (recognizes_symbol .afterVariableDeclaration (by decide) (VariableDeclaration.mk name none))
      (.of_eats (close ⟨name, none⟩))
  apply read.mono
  rintro surroundings _ ⟨_, _, rfl, ⟨name, rfl⟩,
    ⟨_, _, rfl, ⟨equals, rfl⟩, tokens, _, rfl, ⟨value, derives⟩, semicolon, rfl⟩ |
      ⟨semicolon, rfl⟩⟩
  · exact ⟨_, .initialized derives⟩
  · exact ⟨_, .bare⟩

theorem recognizes_optionalBefore (lax : Lax tolerated) (kind : Token.Kind) :
    Recognizes room tolerated .anything (optionalBefore kind) fun _ tokens =>
      ∃ value, DerivesOptional tolerated tokens value where
  reads := (reads_optionalBefore kind).mono fun _ _ _ value derives => ⟨value, derives⟩
  foresees := by
    have branches (absent : Bool) : Foresees room tolerated .anything
        (if absent then pure none else some <$> expression) fun _ read =>
          Unfinished (fun tokens => ∃ value, DerivesOptional tolerated tokens value) read := by
      cases absent with
      | true => exact (foresees_pure none).mono fun _ _ impossible => impossible.elim
      | false =>
          apply ((foresees_expression lax).map some).mono
          intro surroundings read holds
          exact holds.mono fun tokens ⟨tree, derives⟩ => ⟨some tree, .present derives⟩
    apply ((foresees_check kind).bind (reads_check kind) branches).mono
    rintro surroundings read (impossible | ⟨_, _, _, _, rfl, ⟨rfl, _⟩, holds⟩)
    · exact impossible.elim
    · exact holds
  inhabited _ := ⟨[], none, .absent⟩

theorem eats_terminated (place : SyntaxError.Place) : Eats (terminated place) :=
  .of_later (@reads_expression strict).leads (eats_symbol .semicolon place)

theorem recognizes_forInitializer (lax : Lax tolerated) :
    Recognizes room tolerated lookahead forInitializer fun _ tokens =>
      ∃ initializer, DerivesInitializer tolerated tokens initializer := by
  have expression_eats := (eats_terminated .afterExpressionStatement).map ForInitializer.expression
  have declaration_leads :=
    (reads_variableDeclaration.map ForInitializer.declaration : Reads strict _ _).leads
  have read : Recognizes room tolerated lookahead forInitializer _ :=
    recognizes_acceptKind_bind (fun _ => recognizes_pure ForInitializer.absent)
      (recognizes_acceptKind_bind
        (fun _ => (recognizes_variableDeclaration lax).map ForInitializer.declaration)
        ((recognizes_terminated lax .afterExpressionStatement).map ForInitializer.expression)
        (.of_eats expression_eats))
      (.of_eats (eats_accept_bind (fun _ => declaration_leads) expression_eats))
  apply read.mono
  rintro surroundings _
    (⟨_, _, rfl, ⟨semicolon, rfl⟩, rfl⟩ |
      ⟨_, _, rfl, ⟨keyword, rfl⟩, declaration, derives⟩ |
      ⟨tokens, _, rfl, ⟨tree, derives⟩, semicolon, rfl⟩)
  · exact ⟨_, .absent⟩
  · exact ⟨_, .declaration derives⟩
  · exact ⟨_, .expression derives⟩

/-- What is read after a misplaced word was reported. -/
theorem Recognizes.placed {α : Type} {parser : Parser α} {language : Language}
    (recognizes : Recognizes room tolerated lookahead parser language) {error : SyntaxError}
    (allowed : tolerated error.cause) (located : error.token.isSome) (depth : State → Nat)
    (same : ∀ {state twin : State}, twin.loopDepth = state.loopDepth →
      twin.functionDepth = state.functionDepth → depth twin = depth state) :
    Recognizes room tolerated lookahead
      (get >>= fun state => if depth state = 0 then report error >>= fun _ => parser else parser)
      language := by
  have reported : Recognizes room tolerated lookahead (report error >>= fun _ => parser)
      language := by
    apply ((recognizes_report allowed located).bind fun _ => recognizes).mono
    rintro surroundings _ ⟨_, tokens, rfl, rfl, holds⟩
    exact holds
  have branches (state : State) : Recognizes room tolerated lookahead
      (if depth state = 0 then report error >>= fun _ => parser else parser) language := by
    split
    · exact reported
    · exact recognizes
  constructor
  · apply (reads_get_bind fun state => (branches state).reads).mono
    rintro surroundings tokens rest value ⟨_, _, holds⟩
    exact holds
  · apply (Foresees.get_bind (fun state => (branches state).foresees) ?_).mono
    · rintro surroundings read ⟨_, _, holds⟩
      exact holds
    · intro state twin loops functions
      rw [same loops functions]
  · exact recognizes.inhabited

theorem recognizes_jumpStatement (lax : Lax tolerated) (keyword : Token) (jump : Stmt) :
    Recognizes room tolerated lookahead (jumpStatement keyword jump) (.single .semicolon) :=
  (recognizes_symbol (.afterWord keyword.lexeme) (by decide) jump).placed
    (lax (.jumpOutsideLoop keyword.lexeme) rfl) rfl State.loopDepth fun loops _ => loops

theorem recognizes_returnStatement (lax : Lax tolerated) (keyword : Token) :
    Recognizes room tolerated lookahead (returnStatement keyword)
      (Language.Then (fun _ tokens => ∃ value, DerivesOptional tolerated tokens value)
        (.single .semicolon)) :=
  ((recognizes_optionalBefore lax .semicolon).bind_eats
    (fun value => recognizes_symbol .afterReturnValue (by decide) (Stmt.returnValue value))
    fun value => eats_symbol .semicolon .afterReturnValue (Stmt.returnValue value)).placed
    (lax .returnOutsideFunction rfl) rfl State.functionDepth fun _ functions => functions

end Clauses

section Statements

/-- A parser recognizes the statements of a form, and behind them minds only an `else`. -/
abbrev RecognizesForm (room : Nat) (tolerated : Tolerance) (parser : Parser Stmt) (form : Form) :
    Prop :=
  Recognizes room tolerated .elseWord parser (DerivableStmt tolerated form)

theorem inhabited_statement (surroundings : Surroundings) :
    ∃ tokens, DerivableStmt tolerated .statement surroundings tokens := by
  obtain ⟨tree, derives⟩ := @derivableExpr_name tolerated (sample .identifier)
  exact ⟨[(sample .identifier).token] ++ [(sample .semicolon).token], _, .expression derives⟩

theorem inhabited_declaration (surroundings : Surroundings) :
    ∃ tokens, DerivableStmt tolerated .declaration surroundings tokens := by
  obtain ⟨tokens, tree, derives⟩ := @inhabited_statement tolerated surroundings
  exact ⟨tokens, tree, .undeclared derives⟩

/-- Before its first token a statement is unfinished. -/
theorem unfinished_statement_nil (surroundings : Surroundings) :
    Unfinished (DerivableStmt tolerated .statement surroundings) [] := by
  obtain ⟨tree, derives⟩ := @derivableExpr_name tolerated (sample .identifier)
  exact unfinished_before .identifier (by decide) [(sample .semicolon).token]
    ⟨_, .expression derives⟩

/-- What could become a declaration could become a statement if it does not start otherwise. -/
theorem unfinished_statement {surroundings : Surroundings} {read : List Token}
    (no_variable : ∀ token ∈ read.head?, token.kind ≠ .varWord)
    (no_function : ∀ token ∈ read.head?, token.kind ≠ .funWord)
    (unfinished : Unfinished (DerivableStmt tolerated .declaration surroundings) read) :
    Unfinished (DerivableStmt tolerated .statement surroundings) read := by
  cases read with
  | nil => exact unfinished_statement_nil surroundings
  | cons token others =>
      rcases unfinished with ⟨next, later, named, tree, derives⟩
      refine ⟨next, later, named, tree, derives.statement_of_declaration ?_⟩
      intro start start_mem
      exact ⟨no_variable start start_mem, no_function start start_mem⟩

theorem kind_ne_of_head?_append {kind : Token.Kind} {read rest : List Token}
    (absent : false = (read ++ rest).head?.any (·.kind = kind)) :
    ∀ token ∈ read.head?, token.kind ≠ kind := by
  intro token token_mem
  have whole_mem : token ∈ (read ++ rest).head? := by
    rw [Option.mem_def] at token_mem ⊢
    rw [List.head?_append, token_mem]
    rfl
  have refused := absent.symm
  rw [Option.any_eq_false] at refused
  simpa using refused token whole_mem

/-- The tokens of sequences of declarations. -/
def Language.parts (tolerated : Tolerance) : Language := fun surroundings tokens =>
  ∃ results, DescribesParts tolerated surroundings tokens results

theorem inhabited_parts (surroundings : Surroundings) :
    ∃ tokens, Language.parts tolerated surroundings tokens :=
  ⟨[], [], [], rfl, rfl, by simp, by simp⟩

theorem parts_cons {surroundings : Surroundings} {tokens others : List Token}
    (part : Option Stmt) (derives : ∀ statement ∈ part,
      DerivesStmt tolerated .declaration surroundings tokens statement)
    (skips : part = none → Skips tolerated)
    (later : Language.parts tolerated surroundings others) :
    Language.parts tolerated surroundings (tokens ++ others) := by
  rcases later with ⟨_, parts, rfl, rfl, derive, skip⟩
  exact ⟨_, (tokens, part) :: parts, rfl, rfl, List.forall_mem_cons.mpr ⟨derives, derive⟩,
    List.forall_mem_cons.mpr ⟨skips, skip⟩⟩

theorem recognizes_parts {item : Parser (Option (Option Stmt))} {stops : List Token → Prop}
    (advances : ItemAdvances item)
    (item_reads : Reads tolerated item fun surroundings tokens rest found =>
      (found = none ∧ tokens = [] ∧ stops rest) ∨
      (∃ result, found = some result ∧ tokens ≠ [] ∧
        (∀ statement ∈ result,
          DerivesStmt tolerated .declaration surroundings tokens statement) ∧
        (result = none → Skips tolerated)))
    (items : Foresees room tolerated .anything item fun surroundings read =>
      Unfinished (DerivableStmt tolerated .declaration surroundings) read) :
    Recognizes room tolerated .anything (many item) (.parts tolerated) where
  reads := (reads_parts item_reads).mono fun _ _ _ results holds => ⟨results, holds.1⟩
  foresees := by
    apply foresees_many advances item_reads items
    · intro surroundings read holds
      refine holds.mono ?_
      rintro tokens ⟨tree, derives⟩
      obtain ⟨results, none_left⟩ : Language.parts tolerated surroundings [] :=
        ⟨[], [], rfl, rfl, by simp, by simp⟩
      simpa using parts_cons (some tree) (by simpa using derives) (by simp) ⟨results, none_left⟩
    · rintro result surroundings left right rest
        (⟨impossible, _⟩ | ⟨_, ⟨⟩, _, derives, skips⟩) later
      · cases impossible
      · exact later.within left fun tokens whole =>
          ⟨[], by simpa using parts_cons result derives skips whole⟩
  inhabited := inhabited_parts

theorem itemAdvances_blockPart (nested_reads : ReadsForm (fun _ => True) nested .declaration) :
    ItemAdvances (blockPart nested) := by
  apply itemAdvances_of_reads _ (reads_blockPart nested_reads)
  · rintro surroundings tokens rest result (⟨impossible, _⟩ | ⟨_, ⟨⟩, nonempty, _⟩)
    · cases impossible
    · exact nonempty
  · intro state ended
    have looked : check .rightBrace state = .ok false state := by simp [check, ended]
    have at_end : atEnd state = .ok true state := by simp [atEnd, ended]
    rw [blockPart, bind_of_ok looked, bind_of_ok at_end]
    rfl

section

variable (lax : Lax tolerated)
  (nested_reads : ∀ tolerated, ReadsForm tolerated nested .declaration)
  (nested_foresees : Foresees room tolerated .elseWord nested fun surroundings read =>
    Unfinished (DerivableStmt tolerated .declaration surroundings) read)

include nested_reads in
theorem eats_nested : Eats nested :=
  .of_reads (nested_reads _) fun _ _ _ _ derives => derives.1.tokens_ne_nil

include nested_reads nested_foresees

/-- The tokens of a declaration that do not start with the word for one are those of a statement. -/
theorem recognizes_statementOnly :
    RecognizesForm room tolerated (statementOnly nested) .statement where
  reads := (reads_statementOnly (nested_reads tolerated)).mono fun _ _ _ tree holds =>
    ⟨tree, holds.1⟩
  foresees := by
    have branches (variable_next function_next : Bool) : Foresees room tolerated .elseWord
        (if variable_next || function_next then fail .missingExpression else nested)
        fun surroundings read => read = [] ∨ (variable_next = false ∧ function_next = false ∧
          Unfinished (DerivableStmt tolerated .declaration surroundings) read) := by
      split
      · exact (foresees_fail _).mono fun _ _ nothing => .inl nothing
      · rename_i neither
        rw [Bool.or_eq_true, not_or, Bool.not_eq_true, Bool.not_eq_true] at neither
        exact nested_foresees.mono fun _ _ holds => .inr ⟨neither.1, neither.2, holds⟩
    have branches_eat (variable_next function_next : Bool) :
        Eats (if variable_next || function_next then fail .missingExpression else nested) := by
      split
      · exact eats_fail _
      · exact eats_nested nested_reads
    have function_looked (variable_next : Bool) :=
      (foresees_check .funWord).bind_eats (reads_check .funWord) (branches variable_next)
        (branches_eat variable_next)
    have looked : Foresees room tolerated .elseWord (statementOnly nested) _ :=
      (foresees_check .varWord).bind_eats (reads_check .varWord) function_looked
        fun variable_next => .of_later (@reads_check strict .funWord).leads
          (branches_eat variable_next)
    apply looked.mono
    rintro surroundings read
      (impossible | ⟨_, _, read, first_rest, rfl, ⟨rfl, variable_next⟩,
        (impossible | ⟨_, _, read, rest, rfl, ⟨rfl, function_next⟩,
          (rfl | ⟨rfl, rfl, holds⟩)⟩)⟩)
    · exact impossible.elim
    · exact impossible.elim
    · exact unfinished_statement_nil surroundings
    · exact unfinished_statement (kind_ne_of_head?_append variable_next)
        (kind_ne_of_head?_append function_next) holds
  inhabited := inhabited_statement

theorem recognizes_block :
    Recognizes room tolerated .elseWord (block nested)
      ((Language.parts tolerated).Then (.single .rightBrace)) := by
  have branches (closed ended : Bool) : Foresees room tolerated .anything
      (if closed || ended then pure none else some <$> recovering nested)
      fun surroundings read =>
        Unfinished (DerivableStmt tolerated .declaration surroundings) read := by
    split
    · exact (foresees_pure none).mono fun _ _ impossible => impossible.elim
    · exact nested_foresees.recovering.map some
  have items : Foresees room tolerated .anything (blockPart nested) fun surroundings read =>
      Unfinished (DerivableStmt tolerated .declaration surroundings) read := by
    have looked : Foresees room tolerated .anything (blockPart nested) _ :=
      (foresees_check .rightBrace).bind (reads_check .rightBrace) fun closed =>
        foresees_atEnd.bind reads_atEnd (branches closed)
    apply looked.mono
    rintro surroundings read (impossible | ⟨_, _, _, _, rfl, ⟨rfl, _⟩,
      (impossible | ⟨_, _, _, _, rfl, ⟨rfl, _⟩, holds⟩)⟩)
    · exact impossible.elim
    · exact impossible.elim
    · exact holds
  rw [block_eq]
  exact (recognizes_parts (itemAdvances_blockPart (nested_reads _))
    (reads_blockPart (nested_reads tolerated)) items).bind_eats
    (fun results => recognizes_symbol .afterBlock (by decide) (results.filterMap id))
    fun results => eats_symbol .rightBrace .afterBlock (results.filterMap id)

include lax

theorem recognizes_ifStatement :
    Recognizes room tolerated .elseWord (ifStatement (statementOnly nested))
      fun surroundings tokens => ∀ keyword : Token.OfKind .ifWord,
        DerivableStmt tolerated .statement surroundings (keyword.token :: tokens) := by
  have statements := recognizes_statementOnly nested_reads nested_foresees
  have read : Recognizes room tolerated .elseWord (ifStatement (statementOnly nested)) _ :=
    (recognizes_condition lax "if" .afterIfCondition).bind fun condition =>
      statements.bind fun consequence => recognizes_acceptKind_bind
        (fun _ => statements.bind_pure fun alternative =>
          Stmt.ifElse condition consequence alternative)
        (recognizes_pure (Stmt.ifThen condition consequence)) refuses_elseWord
  apply read.mono
  rintro surroundings _ ⟨_, _, rfl, ⟨_, _, rfl, ⟨leftParen, rfl⟩, tokens, _, rfl,
    condition, rightParen, rfl⟩, _, _, rfl, consequence,
    ⟨_, _, rfl, ⟨elseWord, rfl⟩, alternative⟩ | rfl⟩ keyword
  · simpa using derivableStmt_ifElse lax keyword leftParen rightParen elseWord condition
      consequence alternative
  · obtain ⟨condition, condition_derives⟩ := condition
    obtain ⟨consequence, consequence_derives⟩ := consequence
    exact ⟨_, by simpa using .ifThen condition_derives consequence_derives⟩

theorem recognizes_whileStatement :
    Recognizes room tolerated .elseWord (whileStatement (statementOnly nested))
      fun surroundings tokens => ∀ keyword : Token.OfKind .whileWord,
        DerivableStmt tolerated .statement surroundings (keyword.token :: tokens) := by
  have statements := recognizes_statementOnly nested_reads nested_foresees
  have read : Recognizes room tolerated .elseWord (whileStatement (statementOnly nested)) _ :=
    (recognizes_condition lax "while" .afterWhileCondition).bind fun condition =>
      statements.inLoop.bind_pure fun body => Stmt.whileLoop condition body
  apply read.mono
  rintro surroundings _ ⟨_, _, rfl, ⟨_, _, rfl, ⟨leftParen, rfl⟩, tokens, _, rfl,
    ⟨condition, condition_derives⟩, rightParen, rfl⟩, body, body_derives⟩ keyword
  exact ⟨_, by simpa using .whileLoop condition_derives body_derives⟩

theorem recognizes_forStatement :
    Recognizes room tolerated .elseWord (forStatement (statementOnly nested))
      fun surroundings tokens => ∀ keyword : Token.OfKind .forWord,
        DerivableStmt tolerated .statement surroundings (keyword.token :: tokens) := by
  have statements := recognizes_statementOnly nested_reads nested_foresees
  have close (initializer : ForInitializer) (condition increment : Option Expr) :=
    (recognizes_expectSymbol .afterForClauses (by decide)).bind
      fun _ : Token.OfKind .rightParen =>
        statements.inLoop.bind_pure fun body =>
          Stmt.forLoop initializer condition increment body
  have continues (initializer : ForInitializer) (condition : Option Expr) :=
    (recognizes_expectSymbol .afterLoopCondition (by decide)).bind
      fun _ : Token.OfKind .semicolon =>
        (recognizes_optionalBefore lax .rightParen).bind_eats (close initializer condition)
          fun increment => (eats_expect .rightParen _).bind fun _ =>
            (statements.inLoop.bind_pure fun body =>
              Stmt.forLoop initializer condition increment body).reads.leads
  have read : Recognizes room tolerated .elseWord (forStatement (statementOnly nested)) _ :=
    (recognizes_expectSymbol (.afterWord "for") (by decide)).bind fun _ =>
      (recognizes_forInitializer lax).bind fun initializer =>
        (recognizes_optionalBefore lax .semicolon).bind_eats (continues initializer)
          fun condition => (eats_expect .semicolon _).bind fun _ =>
            ((recognizes_optionalBefore lax .rightParen).reads_then
              (close initializer condition)).leads
  apply read.mono
  rintro surroundings _ ⟨_, _, rfl, ⟨leftParen, rfl⟩, _, _, rfl, ⟨initializer, initializer_derives⟩,
    _, _, rfl, ⟨condition, condition_derives⟩, _, _, rfl, ⟨semicolon, rfl⟩,
    _, _, rfl, ⟨increment, increment_derives⟩, _, _, rfl, ⟨rightParen, rfl⟩, body, body_derives⟩
    keyword
  exact ⟨_, by
    simpa using .forLoop initializer_derives condition_derives increment_derives body_derives⟩

omit lax nested_reads nested_foresees in
/-- Names for the pieces of a list. -/
theorem exists_names {pieces : List (List Token)}
    (named : ∀ piece ∈ pieces, ∃ name : Name, piece = [name.token]) :
    ∃ names : List Name, pieces = names.map fun name => [name.token] := by
  induction pieces with
  | nil => exact ⟨[], rfl⟩
  | cons piece pieces ih =>
      rw [List.forall_mem_cons] at named
      obtain ⟨⟨name, rfl⟩, others⟩ := named
      obtain ⟨names, rfl⟩ := ih others
      exact ⟨name :: names, rfl⟩

theorem recognizes_functionDeclaration :
    Recognizes room tolerated .elseWord (functionDeclaration (block nested))
      fun surroundings tokens => ∀ keyword : Token.OfKind .funWord,
        DerivableStmt tolerated .declaration surroundings (keyword.token :: tokens) := by
  have parameters_listed : Recognizes room tolerated .elseWord
      (closedList .tooManyParameters .afterParameters
        (expect .identifier (.missingName .parameter))) _ :=
    recognizes_closedList (lax .tooManyParameters rfl) (recognizes_expect rfl (by decide))
      .afterParameters
  have read : Recognizes room tolerated .elseWord (functionDeclaration (block nested)) _ :=
    (recognizes_expect rfl (by decide)).bind fun name =>
      (recognizes_expectSymbol .afterFunctionName (by decide)).bind fun _ =>
        parameters_listed.bind fun parameters =>
          (recognizes_expectSymbol .beforeFunctionBody (by decide)).bind fun _ =>
            (recognizes_block nested_reads nested_foresees).inFunction.bind_pure fun body =>
              Stmt.declareFunction name parameters.1 body
  apply read.mono
  rintro surroundings _ ⟨_, _, rfl, ⟨name, rfl⟩, _, _, rfl, ⟨leftParen, rfl⟩,
    _, _, rfl, ⟨inner, rightParen, rfl, pieces, separated, named⟩, _, _, rfl, ⟨leftBrace, rfl⟩,
    _, _, rfl, ⟨_, parts, rfl, rfl, derive, skips⟩, rightBrace, rfl⟩ keyword
  obtain ⟨names, rfl⟩ := exists_names named
  exact ⟨_, by
    simpa using .declareFunction separated (.inr (lax .tooManyParameters rfl)) derive skips⟩

theorem recognizes_opened (opening : Opening) :
    Recognizes room tolerated .elseWord (opened nested opening) fun surroundings tokens =>
      ∀ token, opening.IsOf token →
        DerivableStmt tolerated .declaration surroundings (token :: tokens) := by
  have statement {surroundings : Surroundings} {tokens : List Token}
      (derivable : DerivableStmt tolerated .statement surroundings tokens) :
      DerivableStmt tolerated .declaration surroundings tokens :=
    derivable.imp fun _ derives => .undeclared derives
  cases opening with
  | varWord =>
      apply ((recognizes_variableDeclaration lax).map Stmt.declareVariable).mono
      rintro surroundings tokens ⟨declaration, derives⟩ token ⟨keyword, rfl⟩
      exact ⟨_, .declareVariable derives⟩
  | funWord =>
      apply (recognizes_functionDeclaration lax nested_reads nested_foresees).mono
      rintro surroundings tokens derivable token ⟨keyword, rfl⟩
      exact derivable keyword
  | print keyword =>
      apply ((recognizes_terminated lax .afterPrintedValue).map (Stmt.print keyword)).mono
      rintro surroundings _ ⟨tokens, _, rfl, ⟨value, derives⟩, semicolon, rfl⟩ token rfl
      exact statement ⟨_, .print derives⟩
  | sleep keyword =>
      apply ((recognizes_terminated lax .afterSleepDuration).map (Stmt.sleep keyword)).mono
      rintro surroundings _ ⟨tokens, _, rfl, ⟨value, derives⟩, semicolon, rfl⟩ token rfl
      exact statement ⟨_, .sleep derives⟩
  | ifWord =>
      apply (recognizes_ifStatement lax nested_reads nested_foresees).mono
      rintro surroundings tokens derivable token ⟨keyword, rfl⟩
      exact statement (derivable keyword)
  | whileWord =>
      apply (recognizes_whileStatement lax nested_reads nested_foresees).mono
      rintro surroundings tokens derivable token ⟨keyword, rfl⟩
      exact statement (derivable keyword)
  | forWord =>
      apply (recognizes_forStatement lax nested_reads nested_foresees).mono
      rintro surroundings tokens derivable token ⟨keyword, rfl⟩
      exact statement (derivable keyword)
  | returnWord keyword =>
      apply (recognizes_returnStatement lax keyword).mono
      rintro surroundings _ ⟨tokens, _, rfl, ⟨value, derives⟩, semicolon, rfl⟩ token ⟨rfl, kind_eq⟩
      let known : Token.OfKind .returnWord := ⟨keyword, kind_eq⟩
      have whole : DerivesStmt tolerated .statement surroundings
          (known.token :: (tokens ++ [semicolon.token])) (.returnValue value) :=
        .returnValue (.inr (lax .returnOutsideFunction rfl)) derives
      exact statement ⟨_, whole⟩
  | breakWord keyword =>
      apply (recognizes_jumpStatement lax keyword .breakLoop).mono
      rintro surroundings _ ⟨semicolon, rfl⟩ token ⟨rfl, kind_eq⟩
      let known : Token.OfKind .breakWord := ⟨keyword, kind_eq⟩
      have whole : DerivesStmt tolerated .statement surroundings
          [known.token, semicolon.token] .breakLoop :=
        .breakLoop (.inr (lax (.jumpOutsideLoop keyword.lexeme) rfl))
      exact statement ⟨_, whole⟩
  | continueWord keyword =>
      apply (recognizes_jumpStatement lax keyword .continueLoop).mono
      rintro surroundings _ ⟨semicolon, rfl⟩ token ⟨rfl, kind_eq⟩
      let known : Token.OfKind .continueWord := ⟨keyword, kind_eq⟩
      have whole : DerivesStmt tolerated .statement surroundings
          [known.token, semicolon.token] .continueLoop :=
        .continueLoop (.inr (lax (.jumpOutsideLoop keyword.lexeme) rfl))
      exact statement ⟨_, whole⟩
  | leftBrace =>
      apply ((recognizes_block nested_reads nested_foresees).map Stmt.block).mono
      rintro surroundings _ ⟨_, _, rfl, ⟨_, parts, rfl, rfl, derive, skips⟩, rightBrace, rfl⟩ token
        ⟨leftBrace, rfl⟩
      exact statement ⟨_, .block derive skips⟩

theorem recognizes_declarationForm :
    RecognizesForm (room + 1) tolerated (declarationForm nested) .declaration where
  reads := (reads_declarationForm (nested_reads tolerated)).mono fun _ _ _ tree holds =>
    ⟨tree, holds.1⟩
  foresees := by
    have ended : Recognizes (room + 1) tolerated .elseWord _ _ :=
      (recognizes_terminated lax .afterExpressionStatement).map Stmt.expression
    have read : Foresees (room + 1) tolerated .elseWord (declarationForm nested) _ :=
      .accept_bind
        (fun opening => (recognizes_opened lax nested_reads nested_foresees opening).foresees)
        ended.foresees
        (.of_eats ((eats_terminated .afterExpressionStatement).map Stmt.expression))
    apply read.mono
    rintro surroundings read (⟨token, opening, others, rfl, opens, holds⟩ | holds)
    · exact holds.within [token] fun tokens whole =>
        ⟨[], by simpa using whole token (Opening.isOf_of_of? opens)⟩
    · refine holds.mono ?_
      rintro _ ⟨tokens, _, rfl, ⟨value, derives⟩, semicolon, rfl⟩
      exact ⟨_, .undeclared (.expression derives)⟩
  inhabited := inhabited_declaration

end

/-- A declaration is foreseen where fewer tokens are left for the declarations nested in it. -/
theorem recognizes_declaration (lax : Lax tolerated) :
    RecognizesForm room tolerated declaration .declaration := by
  induction room with
  | zero =>
      exact ⟨reads_declaration.mono fun _ _ _ tree holds => ⟨tree, holds.1⟩,
        .zero (@reads_declaration strict).leads, inhabited_declaration⟩
  | succ room ih =>
      rw [declaration_eq]
      exact recognizes_declarationForm lax (fun _ => reads_declaration) ih.foresees

theorem itemAdvances_programPart : ItemAdvances programPart := by
  apply itemAdvances_of_reads _ reads_programPart
  · rintro surroundings tokens rest result (⟨impossible, _⟩ | ⟨_, ⟨⟩, nonempty, _⟩)
    · cases impossible
    · exact nonempty
  · intro state ended
    have at_end : atEnd state = .ok true state := by simp [atEnd, ended]
    rw [programPart, bind_of_ok at_end]
    rfl

theorem foresees_programPart (lax : Lax tolerated) :
    Foresees room tolerated .anything programPart fun surroundings read =>
      Unfinished (DerivableStmt tolerated .declaration surroundings) read := by
  have branches (ended : Bool) : Foresees room tolerated .anything
      (if ended then pure none else some <$> recovering declaration) fun surroundings read =>
        Unfinished (DerivableStmt tolerated .declaration surroundings) read := by
    split
    · exact (foresees_pure none).mono fun _ _ impossible => impossible.elim
    · exact (recognizes_declaration lax).foresees.recovering.map some
  have looked : Foresees room tolerated .anything programPart _ :=
    foresees_atEnd.bind reads_atEnd branches
  apply looked.mono
  rintro surroundings read (impossible | ⟨_, _, _, _, rfl, ⟨rfl, _⟩, holds⟩)
  · exact impossible.elim
  · exact holds

/-- The first fault in a program comes where declarations are unfinished. -/
theorem recognizes_program (lax : Lax tolerated) :
    Recognizes room tolerated .anything program (.parts tolerated) := by
  rw [program_eq]
  exact (recognizes_parts itemAdvances_programPart reads_programPart
    (foresees_programPart lax)).bind_pure fun results => results.filterMap id

end Statements

end Scriptlet.Parser
