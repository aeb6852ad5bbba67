import Scriptlet.Proofs.Parser.ExpressionAcceptance
import Scriptlet.Proofs.Parser.StatementReading

/-!
# Derived statements are accepted

Statements and declarations are read as they are derived, in front of anything but an `else` that
an open `if` at their end would take. In a sequence of declarations each one is followed by the
start of the next or by the end of the sequence, and neither is an `else`.

No fault that ends a declaration may be tolerated here: what is made of skipped tokens depends on
the fault.
-/

namespace Scriptlet.Parser

open Grammar

variable {tolerated : Tolerance} {surroundings : Surroundings} {tokens rest : List Token}

/-- The next token is no `else`. -/
def NoElse (rest : List Token) : Prop :=
  ∀ token ∈ rest.head?, token.kind ≠ .elseWord

theorem noElse_cons {token : Token} (other : token.kind ≠ .elseWord) :
    NoElse (token :: rest) := by
  intro next next_mem
  cases next_mem
  exact other

theorem noElse_append {tokens : List Token} (first : NoElse tokens) (ends : NoElse rest) :
    NoElse (tokens ++ rest) := by
  cases tokens with
  | nil => exact ends
  | cons token tokens => exact noElse_cons (first token rfl)

theorem endsBefore_symbol {kind : Token.Kind} (known : Token.OfKind kind)
    (stops : kind ∉ Category.assignment.continuations) :
    Category.assignment.EndsBefore (known.token :: rest) := by
  apply Category.endsBefore_cons
  rwa [known.kind_eq]

theorem accepts_terminated {place : SyntaxError.Place} {tree : Expr}
    (semicolon : Token.OfKind .semicolon)
    (derives : DerivesExpr tolerated .assignment tokens tree) :
    Accepts tolerated (terminated place) surroundings (tokens ++ [semicolon.token]) rest tree := by
  have read : Accepts tolerated expression surroundings tokens ([semicolon.token] ++ rest) tree :=
    accepts_expression derives (endsBefore_symbol semicolon (by decide))
  exact Accepts.bind read ((accepts_expectSymbol semicolon).bind_pure rfl)

theorem accepts_condition {word : String} {place : SyntaxError.Place} {tree : Expr}
    (leftParen : Token.OfKind .leftParen) (rightParen : Token.OfKind .rightParen)
    (derives : DerivesExpr tolerated .assignment tokens tree) :
    Accepts tolerated (condition word place) surroundings
      (leftParen.token :: (tokens ++ [rightParen.token])) rest tree := by
  have read : Accepts tolerated expression surroundings tokens ([rightParen.token] ++ rest) tree :=
    accepts_expression derives (endsBefore_symbol rightParen (by decide))
  refine Accepts.bind (accepts_expectSymbol leftParen) ?_
  exact Accepts.bind read ((accepts_expectSymbol rightParen).bind_pure rfl)

theorem accepts_optionalBefore {kind : Token.Kind} {tree : Option Expr}
    (known : Token.OfKind kind) (no_start : kind ∉ startKinds)
    (stops : kind ∉ Category.assignment.continuations)
    (derives : DerivesOptional tolerated tokens tree) :
    Accepts tolerated (optionalBefore kind) surroundings tokens (known.token :: rest) tree := by
  cases derives with
  | absent =>
      refine Accepts.of_look (accepts_check known) ?_
      exact accepts_pure
  | present derives =>
      rcases derives.exists_start rfl with ⟨start, others, rfl, starts⟩
      refine Accepts.of_look (accepts_check_false ?_) ?_
      · intro token token_mem kind_eq
        cases token_mem
        exact no_start (kind_eq ▸ starts)
      · exact (accepts_expression derives (endsBefore_symbol known stops)).map some

theorem accepts_variableDeclaration {declaration : VariableDeclaration}
    (derives : DerivesVariable tolerated tokens declaration) :
    Accepts tolerated variableDeclaration surroundings tokens rest declaration := by
  cases derives with
  | @bare name semicolon =>
      have no_initializer : ∀ token ∈ ([semicolon.token] ++ rest).head?, token.kind ≠ .equal := by
        simp [semicolon.kind_eq]
      refine Accepts.bind (accepts_expect name) ?_
      refine Accepts.of_look (accepts_acceptKind_none no_initializer) ?_
      exact (accepts_expectSymbol semicolon).bind_pure rfl
  | @initialized name equals semicolon tokens value derives =>
      have read : Accepts tolerated (some <$> expression) surroundings tokens
          ([semicolon.token] ++ rest) (some value) :=
        (accepts_expression derives (endsBefore_symbol semicolon (by decide))).map some
      refine Accepts.bind (accepts_expect name) ?_
      refine Accepts.bind (accepts_acceptKind equals) ?_
      exact Accepts.bind read ((accepts_expectSymbol semicolon).bind_pure rfl)

theorem accepts_forInitializer {initializer : ForInitializer}
    (derives : DerivesInitializer tolerated tokens initializer) :
    Accepts tolerated forInitializer surroundings tokens rest initializer := by
  cases derives with
  | @absent semicolon => exact (accepts_acceptKind semicolon).bind_pure rfl
  | @declaration keyword tokens declaration derives =>
      refine Accepts.of_look (accepts_acceptKind_none ?_) ?_
      · simp [keyword.kind_eq]
      · exact Accepts.bind (accepts_acceptKind keyword)
          ((accepts_variableDeclaration derives).map ForInitializer.declaration)
  | @expression semicolon tokens tree derives =>
      rcases derives.exists_start rfl with ⟨start, others, rfl, starts⟩
      refine Accepts.of_look (accepts_acceptKind_none ?_) ?_
      · intro token token_mem kind_eq
        cases token_mem
        exact absurd (kind_eq ▸ starts) (by decide)
      · refine Accepts.of_look (accepts_acceptKind_none ?_) ?_
        · intro token token_mem kind_eq
          cases token_mem
          exact absurd (kind_eq ▸ starts) (by decide)
        · exact (accepts_terminated semicolon derives).map ForInitializer.expression

theorem accepts_jumpStatement {keyword : Token} {jump : Stmt} (semicolon : Token.OfKind .semicolon)
    (placed : surroundings.inLoop = true ∨ tolerated (.jumpOutsideLoop keyword.lexeme)) :
    Accepts tolerated (jumpStatement keyword jump) surroundings [semicolon.token] rest jump := by
  apply accepts_get_bind
  rintro state _ rfl
  have ended : Accepts tolerated
      (expectSymbol .semicolon (.afterWord keyword.lexeme) >>= fun _ => pure jump)
      state.surroundings [semicolon.token] rest jump :=
    (accepts_expectSymbol semicolon).bind_pure rfl
  by_cases outside : state.loopDepth = 0
  · have allowed := placed.resolve_left (by simp [State.surroundings, outside])
    simp only [outside, if_true]
    exact (accepts_report allowed).of_look ended
  · simpa only [outside, if_false] using ended

theorem accepts_returnStatement {keyword : Token} {value : Option Expr}
    (semicolon : Token.OfKind .semicolon)
    (placed : surroundings.inFunction = true ∨ tolerated .returnOutsideFunction)
    (derives : DerivesOptional tolerated tokens value) :
    Accepts tolerated (returnStatement keyword) surroundings (tokens ++ [semicolon.token]) rest
      (.returnValue value) := by
  apply accepts_get_bind
  rintro state _ rfl
  have ended : Accepts tolerated
      (optionalBefore .semicolon >>= fun value =>
        expectSymbol .semicolon .afterReturnValue >>= fun _ => pure (Stmt.returnValue value))
      state.surroundings (tokens ++ [semicolon.token]) rest (.returnValue value) := by
    refine Accepts.bind
      (accepts_optionalBefore semicolon (by decide) (by decide) derives) ?_
    exact (accepts_expectSymbol semicolon).bind_pure rfl
  by_cases outside : state.functionDepth = 0
  · have allowed := placed.resolve_left (by simp [State.surroundings, outside])
    simp only [outside, if_true]
    exact (accepts_report allowed).of_look ended
  · simpa only [outside, if_false] using ended

section Nesting

variable {nested : Parser Stmt}

theorem accepts_statementOnly {tree : Stmt}
    (derives : DerivesStmt tolerated .statement surroundings tokens tree)
    (accepts : Accepts tolerated nested surroundings tokens rest tree) :
    Accepts tolerated (statementOnly nested) surroundings tokens rest tree := by
  rcases derives.exists_start with ⟨start, others, rfl, starts⟩
  have no_declaration {kind : Token.Kind} (kind_not_mem : kind ∉ statementStartKinds) :
      Accepts tolerated (check kind) surroundings [] (start :: others ++ rest) false := by
    apply accepts_check_false
    intro token token_mem kind_eq
    cases token_mem
    exact kind_not_mem (kind_eq ▸ starts)
  refine Accepts.of_look (no_declaration (by decide)) ?_
  refine Accepts.of_look (no_declaration (by decide)) ?_
  exact accepts

theorem noElse_parts {parts : List Part}
    (derive : ∀ part ∈ parts, ∀ statement ∈ part.2,
      DerivesStmt tolerated .declaration surroundings part.1 statement)
    (skips : ∀ part ∈ parts, part.2 = none → Skips tolerated) (whole : ¬ Skips tolerated)
    (ends : NoElse rest) : NoElse (parts.flatMap Prod.fst ++ rest) := by
  cases parts with
  | nil => exact ends
  | cons part parts =>
      rw [List.forall_mem_cons] at derive skips
      cases statement_eq : part.2 with
      | none => exact absurd (skips.1 statement_eq) whole
      | some statement =>
          rcases (derive.1 statement statement_eq).exists_start with
            ⟨start, others, part_eq, starts⟩
          rw [List.flatMap_cons, part_eq]
          apply noElse_cons
          intro kind_eq
          exact absurd (kind_eq ▸ starts) (by decide)

/-- The parts of a sequence of declarations are read one by one if none of them was skipped. -/
theorem accepts_parts {item : Parser (Option (Option Stmt))} {parts : List Part}
    (derive : ∀ part ∈ parts, ∀ statement ∈ part.2,
      DerivesStmt tolerated .declaration surroundings part.1 statement)
    (skips : ∀ part ∈ parts, part.2 = none → Skips tolerated) (whole : ¬ Skips tolerated)
    (each : ∀ part ∈ parts, ∀ statement ∈ part.2, ∀ later, NoElse later →
      Accepts tolerated item surroundings part.1 later (some (some statement)))
    (last : Accepts tolerated item surroundings [] rest none) (ends : NoElse rest) :
    Accepts tolerated (many item) surroundings (parts.flatMap Prod.fst) rest
      (parts.map Prod.snd) := by
  apply accepts_many parts _ last
  rintro earlier part later rfl
  have part_mem : part ∈ earlier ++ part :: later := by simp
  cases statement_eq : part.2 with
  | none => exact absurd (skips part part_mem statement_eq) whole
  | some statement =>
      refine ⟨each part part_mem statement statement_eq _ ?_,
        (derive part part_mem statement statement_eq).tokens_ne_nil⟩
      exact noElse_parts (fun other other_mem => derive other (by simp [other_mem]))
        (fun other other_mem => skips other (by simp [other_mem])) whole ends

theorem accepts_block {parts : List Part} (rightBrace : Token.OfKind .rightBrace)
    (derive : ∀ part ∈ parts, ∀ statement ∈ part.2,
      DerivesStmt tolerated .declaration surroundings part.1 statement)
    (skips : ∀ part ∈ parts, part.2 = none → Skips tolerated) (whole : ¬ Skips tolerated)
    (each : ∀ part ∈ parts, ∀ statement ∈ part.2, ∀ later, NoElse later →
      Accepts tolerated nested surroundings part.1 later statement) :
    Accepts tolerated (block nested) surroundings
      (parts.flatMap Prod.fst ++ [rightBrace.token]) rest (parts.filterMap Prod.snd) := by
  have closes : NoElse ([rightBrace.token] ++ rest) :=
    noElse_cons (by simp [rightBrace.kind_eq])
  have parts_read : Accepts tolerated
      (many do
        if (← check .rightBrace) || (← atEnd) then pure none else some <$> recovering nested)
      surroundings (parts.flatMap Prod.fst) ([rightBrace.token] ++ rest)
      (parts.map Prod.snd) := by
    apply accepts_parts derive skips whole _ _ closes
    · intro part part_mem statement statement_mem later noElse
      rcases (derive part part_mem statement statement_mem).exists_start with
        ⟨start, others, part_eq, starts⟩
      have open_ : Accepts tolerated (check .rightBrace) surroundings [] (part.1 ++ later)
          false := by
        apply accepts_check_false
        rw [part_eq]
        intro token token_mem kind_eq
        cases token_mem
        exact absurd (kind_eq ▸ starts) (by decide)
      have more : Accepts tolerated atEnd surroundings [] (part.1 ++ later) false := by
        have looked : Accepts tolerated atEnd surroundings [] (part.1 ++ later)
            (part.1 ++ later).isEmpty := accepts_atEnd
        rwa [part_eq] at looked ⊢
      refine Accepts.of_look open_ ?_
      refine Accepts.of_look more ?_
      exact (accepts_recovering (each part part_mem statement statement_mem later noElse)).map
        some
    · have looked : Accepts tolerated atEnd surroundings [] ([rightBrace.token] ++ rest)
          false := accepts_atEnd
      refine Accepts.of_look (accepts_check rightBrace) ?_
      exact looked.bind_pure rfl
  refine Accepts.bind parts_read ?_
  refine (accepts_expectSymbol rightBrace).bind_pure ?_
  simp [List.filterMap_map]

theorem accepts_functionDeclaration {parts : List Part} {name : Name} {parameters : List Name}
    {inner : List Token} (leftParen : Token.OfKind .leftParen)
    (rightParen : Token.OfKind .rightParen) (leftBrace : Token.OfKind .leftBrace)
    (rightBrace : Token.OfKind .rightBrace)
    (commas : Separated (parameters.map fun parameter => [parameter.token]) inner)
    (few : parameters.length ≤ maxArity ∨ tolerated .tooManyParameters)
    (body_accepts : Accepts tolerated (block nested) ⟨false, true⟩
      (parts.flatMap Prod.fst ++ [rightBrace.token]) rest (parts.filterMap Prod.snd)) :
    Accepts tolerated (functionDeclaration (block nested)) surroundings
      (name.token :: leftParen.token :: (inner ++ rightParen.token :: leftBrace.token ::
        (parts.flatMap Prod.fst ++ [rightBrace.token]))) rest
      (.declareFunction name parameters (parts.filterMap Prod.snd)) := by
  let pieces := parameters.map fun parameter => ([parameter.token], parameter)
  have fst_eq : pieces.map Prod.fst = parameters.map fun parameter => [parameter.token] := by
    simp [pieces]
  have snd_eq : pieces.map Prod.snd = parameters := by
    simp [pieces, Function.comp_def]
  have names : Accepts tolerated
      (closedList .tooManyParameters .afterParameters
        (expect .identifier (.missingName .parameter)))
      surroundings (inner ++ [rightParen.token])
      (leftBrace.token :: (parts.flatMap Prod.fst ++ [rightBrace.token]) ++ rest)
      (parameters, rightParen) := by
    rw [← snd_eq]
    apply accepts_closedList rightParen (fst_eq ▸ commas)
    · intro piece piece_mem later _
      rcases List.mem_map.mp piece_mem with ⟨parameter, _, rfl⟩
      exact accepts_expect parameter
    · intro piece piece_mem
      rcases List.mem_map.mp piece_mem with ⟨parameter, _, rfl⟩
      exact ⟨parameter.token, [], rfl, by simp [parameter.kind_eq]⟩
    · simpa [pieces] using few
  have tokens_eq : name.token :: leftParen.token :: (inner ++ rightParen.token ::
      leftBrace.token :: (parts.flatMap Prod.fst ++ [rightBrace.token])) =
      [name.token] ++ ([leftParen.token] ++ ((inner ++ [rightParen.token]) ++
        ([leftBrace.token] ++ (parts.flatMap Prod.fst ++ [rightBrace.token])))) := by
    simp
  rw [tokens_eq]
  refine Accepts.bind (accepts_expect name) ?_
  refine Accepts.bind (accepts_expectSymbol leftParen) ?_
  refine Accepts.bind names ?_
  refine Accepts.bind (accepts_expectSymbol leftBrace) ?_
  exact (accepts_inFunction body_accepts).bind_pure rfl

theorem accepts_ifThen {consequenceTokens : List Token} {condition : Expr} {consequence : Stmt}
    (leftParen : Token.OfKind .leftParen) (rightParen : Token.OfKind .rightParen)
    (condition_derives : DerivesExpr tolerated .assignment tokens condition)
    (consequence_accepts :
      Accepts tolerated nested surroundings consequenceTokens rest consequence)
    (ends : NoElse rest) :
    Accepts tolerated (ifStatement nested) surroundings
      (leftParen.token :: (tokens ++ [rightParen.token]) ++ consequenceTokens) rest
      (.ifThen condition consequence) := by
  refine Accepts.bind (accepts_condition leftParen rightParen condition_derives) ?_
  refine Accepts.bind_look consequence_accepts ?_
  exact (accepts_acceptKind_none ends).bind_pure rfl

theorem accepts_ifElse {consequenceTokens alternativeTokens : List Token} {condition : Expr}
    {consequence alternative : Stmt} (leftParen : Token.OfKind .leftParen)
    (rightParen : Token.OfKind .rightParen) (elseWord : Token.OfKind .elseWord)
    (condition_derives : DerivesExpr tolerated .assignment tokens condition)
    (consequence_accepts : Accepts tolerated nested surroundings consequenceTokens
      (elseWord.token :: (alternativeTokens ++ rest)) consequence)
    (alternative_accepts :
      Accepts tolerated nested surroundings alternativeTokens rest alternative) :
    Accepts tolerated (ifStatement nested) surroundings
      (leftParen.token :: (tokens ++ [rightParen.token]) ++
        (consequenceTokens ++ ([elseWord.token] ++ alternativeTokens))) rest
      (.ifElse condition consequence alternative) := by
  refine Accepts.bind (accepts_condition leftParen rightParen condition_derives) ?_
  refine Accepts.bind consequence_accepts ?_
  refine Accepts.bind (accepts_acceptKind elseWord) ?_
  exact alternative_accepts.bind_pure rfl

theorem accepts_whileStatement {bodyTokens : List Token} {condition : Expr} {body : Stmt}
    (leftParen : Token.OfKind .leftParen) (rightParen : Token.OfKind .rightParen)
    (condition_derives : DerivesExpr tolerated .assignment tokens condition)
    (body_accepts :
      Accepts tolerated nested ⟨true, surroundings.inFunction⟩ bodyTokens rest body) :
    Accepts tolerated (whileStatement nested) surroundings
      (leftParen.token :: (tokens ++ [rightParen.token]) ++ bodyTokens) rest
      (.whileLoop condition body) := by
  refine Accepts.bind (accepts_condition leftParen rightParen condition_derives) ?_
  exact (accepts_inLoop body_accepts).bind_pure rfl

theorem accepts_forStatement
    {initializerTokens conditionTokens incrementTokens bodyTokens : List Token}
    {initializer : ForInitializer} {condition increment : Option Expr} {body : Stmt}
    (leftParen : Token.OfKind .leftParen) (semicolon : Token.OfKind .semicolon)
    (rightParen : Token.OfKind .rightParen)
    (initializer_derives : DerivesInitializer tolerated initializerTokens initializer)
    (condition_derives : DerivesOptional tolerated conditionTokens condition)
    (increment_derives : DerivesOptional tolerated incrementTokens increment)
    (body_accepts :
      Accepts tolerated nested ⟨true, surroundings.inFunction⟩ bodyTokens rest body) :
    Accepts tolerated (forStatement nested) surroundings
      ([leftParen.token] ++ (initializerTokens ++ (conditionTokens ++ ([semicolon.token] ++
        (incrementTokens ++ ([rightParen.token] ++ bodyTokens)))))) rest
      (.forLoop initializer condition increment body) := by
  refine Accepts.bind (accepts_expectSymbol leftParen) ?_
  refine Accepts.bind (accepts_forInitializer initializer_derives) ?_
  refine Accepts.bind
    (accepts_optionalBefore semicolon (by decide) (by decide) condition_derives) ?_
  refine Accepts.bind (accepts_expectSymbol semicolon) ?_
  refine Accepts.bind
    (accepts_optionalBefore rightParen (by decide) (by decide) increment_derives) ?_
  refine Accepts.bind (accepts_expectSymbol rightParen) ?_
  exact (accepts_inLoop body_accepts).bind_pure rfl

end Nesting

theorem Opening.of?_of_isOf {token : Token} {opening : Opening} (isOf : opening.IsOf token) :
    Opening.of? token = some opening := by
  cases opening with
  | varWord | funWord | ifWord | whileWord | forWord | leftBrace =>
      rcases isOf with ⟨⟨own, kind_eq⟩, rfl⟩
      unfold Opening.of?
      split
      all_goals first
        | rfl
        | rename_i other_eq
          exact absurd (kind_eq.symm.trans other_eq) (by decide)
        | simp_all
  | print keyword | sleep keyword =>
      rcases keyword with ⟨own, kind_eq⟩
      cases isOf
      unfold Opening.of?
      split
      all_goals first
        | rfl
        | rename_i other_eq
          exact absurd (kind_eq.symm.trans other_eq) (by decide)
        | simp_all
  | returnWord keyword | breakWord keyword | continueWord keyword =>
      rcases isOf with ⟨rfl, kind_eq⟩
      unfold Opening.of?
      split
      all_goals first
        | rfl
        | rename_i other_eq
          exact absurd (kind_eq.symm.trans other_eq) (by decide)
        | simp_all

theorem Opening.of?_eq_none {token : Token} (starts : token.kind ∈ startKinds) :
    Opening.of? token = none := by
  unfold Opening.of?
  split
  all_goals first
    | rfl
    | rename_i kind_eq
      exact absurd (kind_eq ▸ starts) (by decide)

/-- What the parser for declarations does with the tokens of a statement, given that the nesting
bound counts all tokens but one. -/
def AcceptsStmt (tolerated : Tolerance) (surroundings : Surroundings) (tokens : List Token)
    (tree : Stmt) : Prop :=
  ∀ bound rest : List Token, tokens.length ≤ bound.length + 1 →
    (tree.endsOpen = true → NoElse rest) →
    Accepts tolerated (declarationForm (declarationWithin bound)) surroundings tokens rest tree

namespace AcceptsStmt

variable {bound : List Token} {tree : Stmt}

/-- A nested declaration has fewer tokens than there are left, so it may nest once more. -/
theorem within (accepts : AcceptsStmt tolerated surroundings tokens tree)
    (nonempty : tokens ≠ []) (few : tokens.length ≤ bound.length)
    (ends : tree.endsOpen = true → NoElse rest) :
    Accepts tolerated (declarationWithin bound) surroundings tokens rest tree := by
  cases bound with
  | nil => exact absurd (List.eq_nil_of_length_eq_zero (Nat.le_zero.mp few)) nonempty
  | cons _ bound => exact accepts bound rest few ends

theorem statement (accepts : AcceptsStmt tolerated surroundings tokens tree)
    (derives : DerivesStmt tolerated .statement surroundings tokens tree)
    (few : tokens.length ≤ bound.length) (ends : tree.endsOpen = true → NoElse rest) :
    Accepts tolerated (statementOnly (declarationWithin bound)) surroundings tokens rest tree :=
  accepts_statementOnly derives (accepts.within derives.tokens_ne_nil few ends)

/-- A declaration with an opening is read by what the opening calls for. -/
theorem of_opened {token : Token} {opening : Opening} (isOf : opening.IsOf token)
    (accepts : ∀ bound rest : List Token, tokens.length ≤ bound.length →
      (tree.endsOpen = true → NoElse rest) →
      Accepts tolerated (opened (declarationWithin bound) opening) surroundings tokens rest
        tree) :
    AcceptsStmt tolerated surroundings (token :: tokens) tree := by
  intro bound rest few ends
  rw [List.length_cons] at few
  refine Accepts.bind (accepts_accept (Opening.of?_of_isOf isOf)) ?_
  exact accepts bound rest (by omega) ends

end AcceptsStmt

theorem length_part_le {parts : List Part} {part : Part} (part_mem : part ∈ parts) :
    part.1.length ≤ (parts.flatMap Prod.fst).length := by
  rcases List.append_of_mem part_mem with ⟨earlier, later, rfl⟩
  simp only [List.flatMap_append, List.flatMap_cons, List.length_append]
  omega

theorem acceptsStmt_of_derives (whole : ¬ Skips tolerated) {form : Form} {tree : Stmt}
    (derives : DerivesStmt tolerated form surroundings tokens tree) :
    AcceptsStmt tolerated surroundings tokens tree := by
  induction derives with
  | @declareVariable _ keyword _ declaration derives =>
      have isOf : Opening.varWord.IsOf keyword.token := ⟨keyword, rfl⟩
      apply AcceptsStmt.of_opened isOf
      intro bound rest _ _
      exact (accepts_variableDeclaration derives).map Stmt.declareVariable
  | @declareFunction _ keyword leftParen rightParen leftBrace rightBrace name parameters inner
      parts separated few parts_derive skips ih =>
      have isOf : Opening.funWord.IsOf keyword.token := ⟨keyword, rfl⟩
      apply AcceptsStmt.of_opened isOf
      intro bound rest few_tokens _
      apply accepts_functionDeclaration leftParen rightParen leftBrace rightBrace separated few
      apply accepts_block rightBrace parts_derive skips whole
      intro part part_mem statement statement_mem later noElse
      have shorter := length_part_le part_mem
      simp only [List.length_cons, List.length_append] at few_tokens
      exact (ih part part_mem statement statement_mem).within
        (parts_derive part part_mem statement statement_mem).tokens_ne_nil (by omega)
        fun _ => noElse
  | undeclared _ ih => exact ih
  | @expression _ semicolon tokens tree derives =>
      intro bound rest few _
      rcases derives.exists_start rfl with ⟨start, others, rfl, starts⟩
      refine Accepts.of_look (accepts_accept_none ?_) ?_
      · intro token token_mem
        cases token_mem
        exact Opening.of?_eq_none starts
      · exact (accepts_terminated semicolon derives).map Stmt.expression
  | @print _ keyword semicolon tokens tree derives =>
      have isOf : (Opening.print keyword).IsOf keyword.token := rfl
      apply AcceptsStmt.of_opened isOf
      intro bound rest _ _
      exact (accepts_terminated semicolon derives).map (Stmt.print keyword)
  | @sleep _ keyword semicolon tokens tree derives =>
      have isOf : (Opening.sleep keyword).IsOf keyword.token := rfl
      apply AcceptsStmt.of_opened isOf
      intro bound rest _ _
      exact (accepts_terminated semicolon derives).map (Stmt.sleep keyword)
  | @ifThen _ keyword leftParen rightParen tokens consequenceTokens condition consequence
      condition_derives consequence_derives ih =>
      have isOf : Opening.ifWord.IsOf keyword.token := ⟨keyword, rfl⟩
      apply AcceptsStmt.of_opened isOf
      intro bound rest few ends
      simp only [List.length_cons, List.length_append] at few
      have nested_accepts : Accepts tolerated (statementOnly (declarationWithin bound)) _
          consequenceTokens rest consequence :=
        ih.statement consequence_derives (by omega) fun _ => ends rfl
      have read := accepts_ifThen leftParen rightParen condition_derives nested_accepts (ends rfl)
      simpa [opened] using read
  | @ifElse _ keyword leftParen rightParen elseWord tokens consequenceTokens alternativeTokens
      condition consequence alternative condition_derives consequence_derives closed
      alternative_derives consequence_ih alternative_ih =>
      have isOf : Opening.ifWord.IsOf keyword.token := ⟨keyword, rfl⟩
      apply AcceptsStmt.of_opened isOf
      intro bound rest few ends
      simp only [List.length_cons, List.length_append] at few
      have consequence_accepts : Accepts tolerated (statementOnly (declarationWithin bound)) _
          consequenceTokens (elseWord.token :: (alternativeTokens ++ rest)) consequence :=
        consequence_ih.statement consequence_derives (by omega) (by simp [closed])
      have alternative_accepts : Accepts tolerated (statementOnly (declarationWithin bound)) _
          alternativeTokens rest alternative :=
        alternative_ih.statement alternative_derives (by omega) ends
      have read := accepts_ifElse leftParen rightParen elseWord condition_derives
        consequence_accepts alternative_accepts
      simpa [opened] using read
  | @whileLoop _ keyword leftParen rightParen tokens bodyTokens condition body
      condition_derives body_derives ih =>
      have isOf : Opening.whileWord.IsOf keyword.token := ⟨keyword, rfl⟩
      apply AcceptsStmt.of_opened isOf
      intro bound rest few ends
      simp only [List.length_cons, List.length_append] at few
      have body_accepts : Accepts tolerated (statementOnly (declarationWithin bound)) _
          bodyTokens rest body := ih.statement body_derives (by omega) ends
      have read := accepts_whileStatement leftParen rightParen condition_derives body_accepts
      simpa [opened] using read
  | @forLoop _ keyword leftParen rightParen semicolon initializerTokens conditionTokens
      incrementTokens bodyTokens initializer condition increment body initializer_derives
      condition_derives increment_derives body_derives ih =>
      have isOf : Opening.forWord.IsOf keyword.token := ⟨keyword, rfl⟩
      apply AcceptsStmt.of_opened isOf
      intro bound rest few ends
      simp only [List.length_cons, List.length_append] at few
      exact accepts_forStatement leftParen semicolon rightParen initializer_derives
        condition_derives increment_derives (ih.statement body_derives (by omega) ends)
  | @breakLoop _ keyword semicolon placed =>
      have isOf : (Opening.breakWord keyword.token).IsOf keyword.token := ⟨rfl, keyword.kind_eq⟩
      apply AcceptsStmt.of_opened isOf
      intro bound rest _ _
      exact accepts_jumpStatement semicolon placed
  | @continueLoop _ keyword semicolon placed =>
      have isOf : (Opening.continueWord keyword.token).IsOf keyword.token :=
        ⟨rfl, keyword.kind_eq⟩
      apply AcceptsStmt.of_opened isOf
      intro bound rest _ _
      exact accepts_jumpStatement semicolon placed
  | @returnValue _ keyword semicolon tokens value placed value_derives =>
      have isOf : (Opening.returnWord keyword.token).IsOf keyword.token := ⟨rfl, keyword.kind_eq⟩
      apply AcceptsStmt.of_opened isOf
      intro bound rest _ _
      exact accepts_returnStatement semicolon placed value_derives
  | @block _ leftBrace rightBrace parts parts_derive skips ih =>
      have isOf : Opening.leftBrace.IsOf leftBrace.token := ⟨leftBrace, rfl⟩
      apply AcceptsStmt.of_opened isOf
      intro bound rest few _
      refine Accepts.map (accepts_block rightBrace parts_derive skips whole ?_) Stmt.block
      intro part part_mem statement statement_mem later noElse
      have shorter := length_part_le part_mem
      rw [List.length_append] at few
      exact (ih part part_mem statement statement_mem).within
        (parts_derive part part_mem statement statement_mem).tokens_ne_nil (by omega)
        fun _ => noElse

theorem accepts_declaration (whole : ¬ Skips tolerated) {tree : Stmt}
    (derives : DerivesStmt tolerated .declaration surroundings tokens tree)
    (ends : tree.endsOpen = true → NoElse rest) :
    Accepts tolerated declaration surroundings tokens rest tree := by
  apply accepts_get_bind
  intro state rest_eq _
  apply (acceptsStmt_of_derives whole derives).within derives.tokens_ne_nil _ ends
  simp [rest_eq]

theorem accepts_program (whole : ¬ Skips tolerated) {statements : List Stmt}
    (derives : DerivesProgram tolerated tokens statements) :
    Accepts tolerated program ⟨false, false⟩ tokens [] statements := by
  rcases derives with ⟨parts, derive, skips, rfl, rfl⟩
  have parts_read : Accepts tolerated
      (many do if ← atEnd then pure none else some <$> recovering declaration)
      ⟨false, false⟩ (parts.flatMap Prod.fst) [] (parts.map Prod.snd) := by
    apply accepts_parts derive skips whole
    · intro part part_mem statement statement_mem later noElse
      have part_derives := derive part part_mem statement statement_mem
      have more : Accepts tolerated atEnd ⟨false, false⟩ [] (part.1 ++ later) false := by
        rcases part_derives.exists_start with ⟨start, others, part_eq, _⟩
        have looked : Accepts tolerated atEnd ⟨false, false⟩ [] (part.1 ++ later)
            (part.1 ++ later).isEmpty := accepts_atEnd
        rwa [part_eq] at looked ⊢
      refine Accepts.of_look more ?_
      exact (accepts_recovering (accepts_declaration whole part_derives fun _ => noElse)).map some
    · have ended : Accepts tolerated atEnd ⟨false, false⟩ [] [] true := accepts_atEnd
      exact ended.bind_pure rfl
    · simp [NoElse]
  refine Accepts.bind_pure parts_read ?_
  simp [List.filterMap_map]

/-- The program that a sequence of tokens stands for is made of it, with no error reported. -/
theorem parseProgram_eq {statements : List Stmt}
    (derives : DerivesProgram strict tokens statements) :
    parseProgram tokens = (statements, []) := by
  have whole : ¬ Skips strict := fun ⟨_, _, impossible⟩ => impossible
  rcases accepts_program whole derives (.start tokens) (by simp [State.start])
    (by simp [State.start, State.surroundings]) with ⟨after, run_eq, reaches⟩
  rw [reaches.after_eq] at run_eq
  simp only [parseProgram, run, run_eq]
  rfl

end Scriptlet.Parser
