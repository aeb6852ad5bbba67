import Scriptlet.Proofs.Parser.Acceptance
import Scriptlet.Proofs.Parser.ExpressionReading

/-!
# Derived expressions are accepted

Every reading level accepts the tokens that the grammar derives for it, in front of anything that
does not go on with the expression, and makes the derived tree of them. The nesting bound has to
count the tokens of what is nested, which are fewer than those around it.
-/

namespace Scriptlet

namespace Grammar

/-- The levels that bind at least as tightly as a level. -/
def Level.andTighter : Level → List Level
  | .disjunction => [.disjunction, .conjunction, .equality, .comparison, .sum, .product]
  | .conjunction => [.conjunction, .equality, .comparison, .sum, .product]
  | .equality => [.equality, .comparison, .sum, .product]
  | .comparison => [.comparison, .sum, .product]
  | .sum => [.sum, .product]
  | .product => [.product]

/-- The kinds of the operators of a level. -/
def Level.operatorKinds (level : Level) : List Token.Kind :=
  level.binaryOperators.map BinaryOperator.kind ++
    level.logicalOperators.map LogicalOperator.kind

/-- The kinds of tokens that an expression of a level goes on with. -/
def Level.continuations (level : Level) : List Token.Kind :=
  .leftParen :: level.andTighter.flatMap Level.operatorKinds

/-- The kinds of tokens that an expression of a category goes on with. -/
def Category.continuations : Category → List Token.Kind
  | .primary => []
  | .call | .calls _ | .unary => [.leftParen]
  | .level own | .chain own _ => own.continuations
  | .assignment => .equal :: Level.disjunction.continuations

/-- What follows does not go on with an expression of a category. -/
def Category.EndsBefore (category : Category) (rest : List Token) : Prop :=
  ∀ token ∈ rest.head?, token.kind ∉ category.continuations

theorem Category.EndsBefore.mono {category looser : Category} {rest : List Token}
    (ends : looser.EndsBefore rest)
    (subset : category.continuations ⊆ looser.continuations) : category.EndsBefore rest := by
  intro token token_mem kind_mem
  exact ends token token_mem (subset kind_mem)

theorem Category.endsBefore_cons {category : Category} {token : Token} {rest : List Token}
    (refused : token.kind ∉ category.continuations) : category.EndsBefore (token :: rest) := by
  intro next next_mem
  cases next_mem
  exact refused

theorem Level.continuations_operand_subset (level : Level) :
    level.operand.continuations ⊆ (Category.level level).continuations := by
  cases level <;> decide

theorem Level.continuations_subset (level : Level) :
    level.continuations ⊆ Level.disjunction.continuations := by
  cases level <;> decide

theorem Level.operatorKinds_subset (level : Level) :
    level.operatorKinds ⊆ level.continuations := by
  cases level <;> decide

/-- An operator of a level does not go on with its left operand. -/
theorem Level.operatorKinds_refused {level : Level} {kind : Token.Kind}
    (kind_mem : kind ∈ level.operatorKinds) : kind ∉ level.operand.continuations := by
  revert kind
  cases level <;> decide

theorem Level.binary_kind_mem {level : Level} {operator : BinaryOperator}
    (operator_mem : operator ∈ level.binaryOperators) : operator.kind ∈ level.operatorKinds :=
  List.mem_append_left _ (List.mem_map_of_mem operator_mem)

theorem Level.logical_kind_mem {level : Level} {operator : LogicalOperator}
    (operator_mem : operator ∈ level.logicalOperators) : operator.kind ∈ level.operatorKinds :=
  List.mem_append_right _ (List.mem_map_of_mem operator_mem)

/-- What follows the left operand of a level does not go on with it. -/
theorem DerivesExpr.endsBefore_operand {tolerated : Tolerance} {level : Level} {left tree : Expr}
    {tokens rest : List Token} (derives : DerivesExpr tolerated (.chain level left) tokens tree)
    (ends : (Category.chain level left).EndsBefore rest) :
    level.operand.EndsBefore (tokens ++ rest) := by
  cases derives with
  | chainEnd => exact ends.mono level.continuations_operand_subset
  | @chainLogical _ operator _ _ _ _ _ operator_mem =>
      apply Category.endsBefore_cons
      rw [operator.kind_eq]
      exact Level.operatorKinds_refused (Level.logical_kind_mem operator_mem)
  | @chainBinary _ operator _ _ _ _ _ operator_mem =>
      apply Category.endsBefore_cons
      rw [operator.kind_eq]
      exact Level.operatorKinds_refused (Level.binary_kind_mem operator_mem)

end Grammar

namespace Parser

open Grammar

variable {tolerated : Tolerance} {surroundings : Surroundings} {tokens rest : List Token}
  {nested : Parser Expr}

theorem accepts_primary_literal {token : Token} (kind_mem : token.kind ∈ literalKinds) :
    Accepts tolerated (primary nested) surroundings [token] rest
      (.literal (token.literal.getD .nil)) :=
  (accepts_accept (literalOf?_eq_some_iff.mpr ⟨kind_mem, rfl⟩)).bind_pure rfl

theorem accepts_noLiteral {token : Token} (kind_not_mem : token.kind ∉ literalKinds) :
    Accepts tolerated (accept literalOf?) surroundings [] (token :: rest) none := by
  apply accepts_accept_none
  intro next next_mem
  cases next_mem
  exact literalOf?_eq_none_iff.mpr kind_not_mem

theorem accepts_primary_reference (name : Name) :
    Accepts tolerated (primary nested) surroundings [name.token] rest (.reference name) := by
  refine Accepts.of_look (accepts_noLiteral ?_) ?_
  · rw [name.kind_eq]
    decide
  · exact (accepts_acceptKind name).bind_pure rfl

theorem accepts_primary_grouping (leftParen : Token.OfKind .leftParen)
    (rightParen : Token.OfKind .rightParen) {inner : Expr}
    (accepts : Accepts tolerated nested surroundings tokens (rightParen.token :: rest) inner) :
    Accepts tolerated (primary nested) surroundings
      (leftParen.token :: (tokens ++ [rightParen.token])) rest (.grouping inner) := by
  refine Accepts.of_look (accepts_noLiteral ?_) ?_
  · rw [leftParen.kind_eq]
    decide
  · refine Accepts.of_look (accepts_acceptKind_none ?_) ?_
    · simp [leftParen.kind_eq]
    · exact (accepts_acceptKind leftParen).bind
        (Accepts.bind accepts ((accepts_expectSymbol rightParen).bind_pure rfl))

/-- Reads the arguments of one more call. -/
def furtherCall (nested : Parser Expr) (callee : Expr) : Parser (Option Expr) := do
  match ← acceptKind .leftParen with
  | some _ => do pure (some (← finishCall nested callee))
  | none => pure none

theorem call_eq (nested : Parser Expr) :
    call nested = primary nested >>= loop (furtherCall nested) :=
  rfl

theorem accepts_furtherCall (leftParen : Token.OfKind .leftParen)
    (rightParen : Token.OfKind .rightParen) {arguments : List (List Token × Expr)}
    {inner : List Token} {callee : Expr}
    (separated : Separated (arguments.map Prod.fst) inner)
    (each : ∀ argument ∈ arguments, ∀ later : List Token,
      (∀ token ∈ later.head?, EndsItem token) →
      Accepts tolerated nested surroundings argument.1 later argument.2)
    (starts : ∀ argument ∈ arguments, ∃ token others, argument.1 = token :: others ∧
      token.kind ≠ .rightParen)
    (few : arguments.length ≤ maxArity ∨ tolerated .tooManyArguments) :
    Accepts tolerated (furtherCall nested callee) surroundings
      (leftParen.token :: (inner ++ [rightParen.token])) rest
      (some (.call callee rightParen (arguments.map Prod.snd))) := by
  have finish : Accepts tolerated (finishCall nested callee) surroundings
      (inner ++ [rightParen.token]) rest (.call callee rightParen (arguments.map Prod.snd)) :=
    (accepts_closedList rightParen separated each starts few).bind_pure rfl
  exact (accepts_acceptKind leftParen).bind (finish.bind_pure rfl)

theorem accepts_furtherCall_none {callee : Expr}
    (ends : (Category.calls callee).EndsBefore rest) :
    Accepts tolerated (furtherCall nested callee) surroundings [] rest none := by
  refine (accepts_acceptKind_none ?_).bind_pure rfl
  intro token token_mem kind_eq
  exact ends token token_mem (by simp [Category.continuations, kind_eq])

/-- Operators before an operand are all read before it. -/
theorem accepts_unary (operators : List (Operator UnaryOperator.kind)) {operand : Expr}
    (accepts : Accepts tolerated (call nested) surroundings tokens rest operand)
    (starts : ∃ token others, tokens = token :: others ∧
      ∀ meaning, token.kind ≠ UnaryOperator.kind meaning) :
    Accepts tolerated (unary nested) surroundings
      (operators.map (·.token) ++ tokens) rest (operators.foldr .unary operand) := by
  rcases starts with ⟨token, others, rfl, not_operator⟩
  have item (operator : Operator UnaryOperator.kind) {later : List Token} :
      Accepts tolerated (accept (Operator.of? UnaryOperator.kind · unaryOperators)) surroundings
        [operator.token] later (some operator) := by
    apply accepts_accept
    apply Operator.of?_token UnaryOperator.kind_injective
    cases operator.meaning <;> decide
  have many_read : Accepts tolerated
      (many (accept (Operator.of? UnaryOperator.kind · unaryOperators))) surroundings
      ((operators.map fun operator => ([operator.token], operator)).flatMap Prod.fst)
      (token :: others ++ rest)
      ((operators.map fun operator => ([operator.token], operator)).map Prod.snd) := by
    apply accepts_many
    · rintro earlier part later parts_eq
      have part_mem : part ∈ operators.map fun operator => ([operator.token], operator) := by
        simp [parts_eq]
      rcases List.mem_map.mp part_mem with ⟨operator, _, rfl⟩
      exact ⟨item operator, by simp⟩
    · apply accepts_accept_none
      intro next next_mem
      cases next_mem
      exact Operator.of?_eq_none_iff.mpr fun meaning _ => not_operator meaning
  rw [List.flatMap_map, ← List.map_eq_flatMap, List.map_map, Function.comp_def,
    List.map_id'] at many_read
  exact Accepts.bind many_read (accepts.bind_pure rfl)

/-- The parser for the operands of a level. -/
def operandParser (nested : Parser Expr) : Level → Parser Expr
  | .disjunction => logical .both (binary (unary nested) binaryLevels)
  | .conjunction => binary (unary nested) binaryLevels
  | .equality => binary (unary nested) (binaryLevels.drop 1)
  | .comparison => binary (unary nested) (binaryLevels.drop 2)
  | .sum => binary (unary nested) (binaryLevels.drop 3)
  | .product => unary nested

/-- Reads one more operator and its right operand. -/
def further {Operation : Type} (operator? : Token → Option Operation)
    (join : Expr → Operation → Expr → Expr) (operand : Parser Expr) (left : Expr) :
    Parser (Option Expr) := do
  match ← accept operator? with
  | some operator => do pure (some (join left operator (← operand)))
  | none => pure none

/-- Reads one more operator of a level and its right operand. -/
def furtherOperation (nested : Parser Expr) (level : Level) : Expr → Parser (Option Expr) :=
  let operand := operandParser nested level
  match level with
  | .disjunction => further (Operator.of? LogicalOperator.kind · [.either]) .logical operand
  | .conjunction => further (Operator.of? LogicalOperator.kind · [.both]) .logical operand
  | .equality | .comparison | .sum | .product =>
      further (Operator.of? BinaryOperator.kind · level.binaryOperators) .binary operand

/-- Reads operands of a level with the operators of the level between them. -/
def levelParser (nested : Parser Expr) (level : Level) : Parser Expr :=
  operandParser nested level >>= loop (furtherOperation nested level)

theorem accepts_further {Operation : Type} {operator? : Token → Option Operation}
    {join : Expr → Operation → Expr → Expr} {operand : Parser Expr} {token : Token}
    {operation : Operation} {left right : Expr} (classified : operator? token = some operation)
    (accepts : Accepts tolerated operand surroundings tokens rest right) :
    Accepts tolerated (further operator? join operand left) surroundings (token :: tokens) rest
      (some (join left operation right)) :=
  (accepts_accept classified).bind (accepts.bind_pure rfl)

theorem accepts_furtherOperation_logical {level : Level}
    {operator : Operator LogicalOperator.kind} {left right : Expr}
    (operator_mem : operator.meaning ∈ level.logicalOperators)
    (accepts : Accepts tolerated (operandParser nested level) surroundings tokens rest right) :
    Accepts tolerated (furtherOperation nested level left) surroundings
      (operator.token :: tokens) rest (some (.logical left operator right)) := by
  have classified := Operator.of?_token LogicalOperator.kind_injective operator_mem
  cases level with
  | disjunction | conjunction => exact accepts_further classified accepts
  | equality | comparison | sum | product => cases operator_mem

theorem accepts_furtherOperation_binary {level : Level}
    {operator : Operator BinaryOperator.kind} {left right : Expr}
    (operator_mem : operator.meaning ∈ level.binaryOperators)
    (accepts : Accepts tolerated (operandParser nested level) surroundings tokens rest right) :
    Accepts tolerated (furtherOperation nested level left) surroundings
      (operator.token :: tokens) rest (some (.binary left operator right)) := by
  have classified := Operator.of?_token BinaryOperator.kind_injective operator_mem
  cases level with
  | disjunction | conjunction => cases operator_mem
  | equality | comparison | sum | product => exact accepts_further classified accepts

theorem accepts_furtherOperation_none {level : Level} {left : Expr}
    (ends : (Category.chain level left).EndsBefore rest) :
    Accepts tolerated (furtherOperation nested level left) surroundings [] rest none := by
  have refused : ∀ token ∈ rest.head?, token.kind ∉ level.operatorKinds := by
    intro token token_mem kind_mem
    exact ends token token_mem (level.operatorKinds_subset kind_mem)
  have logical (token : Token) (token_mem : token ∈ rest.head?) :
      Operator.of? LogicalOperator.kind token level.logicalOperators = none := by
    apply Operator.of?_eq_none_iff.mpr
    rintro meaning meaning_mem kind_eq
    exact refused token token_mem (kind_eq ▸ Level.logical_kind_mem meaning_mem)
  have binary (token : Token) (token_mem : token ∈ rest.head?) :
      Operator.of? BinaryOperator.kind token level.binaryOperators = none := by
    apply Operator.of?_eq_none_iff.mpr
    rintro meaning meaning_mem kind_eq
    exact refused token token_mem (kind_eq ▸ Level.binary_kind_mem meaning_mem)
  cases level with
  | disjunction | conjunction => exact (accepts_accept_none logical).bind_pure rfl
  | equality | comparison | sum | product => exact (accepts_accept_none binary).bind_pure rfl

/-- An operand alone is an expression of its level if no operator of the level follows. -/
theorem accepts_levelParser {level : Level} {tree : Expr}
    (ends : (Category.chain level tree).EndsBefore rest)
    (accepts : Accepts tolerated (operandParser nested level) surroundings tokens rest tree) :
    Accepts tolerated (levelParser nested level) surroundings tokens rest tree := by
  exact accepts.bind_look (accepts_loop (acceptsLoop_end (accepts_furtherOperation_none ends)))

/-- A name alone is an expression of every level. -/
theorem accepts_disjunction_reference (name : Name)
    (ends : (Category.level .disjunction).EndsBefore rest) :
    Accepts tolerated (disjunction nested) surroundings [name.token] rest (.reference name) := by
  have ends_chain (level : Level) :
      (Category.chain level (.reference name)).EndsBefore rest :=
    ends.mono level.continuations_subset
  have ends_calls : (Category.calls (.reference name)).EndsBefore rest :=
    ends.mono (List.cons_subset_cons _ (List.nil_subset _))
  have called : Accepts tolerated (call nested) surroundings [name.token] rest
      (.reference name) :=
    (accepts_primary_reference name).bind_look
      (accepts_loop (acceptsLoop_end (accepts_furtherCall_none ends_calls)))
  have operand : Accepts tolerated (unary nested) surroundings [name.token] rest
      (.reference name) := by
    refine accepts_unary [] called ⟨name.token, [], rfl, ?_⟩
    intro meaning
    rw [name.kind_eq]
    cases meaning <;> decide
  have product := accepts_levelParser (ends_chain .product) operand
  have sum := accepts_levelParser (ends_chain .sum) product
  have comparison := accepts_levelParser (ends_chain .comparison) sum
  have equality := accepts_levelParser (ends_chain .equality) comparison
  have conjunction := accepts_levelParser (ends_chain .conjunction) equality
  exact accepts_levelParser (ends_chain .disjunction) conjunction

/-- What the parsers of a category do with the tokens of an expression, given that the nesting bound
counts all tokens but one. -/
def AcceptsCategory (tolerated : Tolerance) (category : Category) (tokens : List Token)
    (tree : Expr) : Prop :=
  ∀ (bound rest : List Token) (surroundings : Surroundings),
    tokens.length ≤ bound.length + 1 → category.EndsBefore rest →
    match category with
    | .assignment =>
        Accepts tolerated (assignment (expressionWithin bound)) surroundings tokens rest tree
    | .level level =>
        Accepts tolerated (levelParser (expressionWithin bound) level) surroundings tokens rest
          tree
    | .chain level left =>
        AcceptsLoop tolerated (furtherOperation (expressionWithin bound) level) surroundings
          tokens rest left tree
    | .unary =>
        Accepts tolerated (unary (expressionWithin bound)) surroundings tokens rest tree ∧
        ∃ (operators : List (Operator UnaryOperator.kind)) (operandTokens : List Token)
          (operand : Expr), tokens = operators.map (·.token) ++ operandTokens ∧
            tree = operators.foldr .unary operand ∧
            DerivesExpr tolerated .call operandTokens operand ∧
            Accepts tolerated (call (expressionWithin bound)) surroundings operandTokens rest
              operand
    | .call =>
        Accepts tolerated (call (expressionWithin bound)) surroundings tokens rest tree
    | .calls callee =>
        AcceptsLoop tolerated (furtherCall (expressionWithin bound)) surroundings tokens rest
          callee tree
    | .primary =>
        Accepts tolerated (primary (expressionWithin bound)) surroundings tokens rest tree

namespace AcceptsCategory

variable {tree : Expr} {bound : List Token}

theorem operand {level : Level} (accepts : AcceptsCategory tolerated level.operand tokens tree)
    (few : tokens.length ≤ bound.length + 1) (ends : level.operand.EndsBefore rest) :
    Accepts tolerated (operandParser (expressionWithin bound) level) surroundings tokens rest
      tree := by
  have accepted := accepts bound rest surroundings few ends
  cases level with
  | disjunction | conjunction | equality | comparison | sum => exact accepted
  | product => exact accepted.1

/-- A nested expression has fewer tokens than there are left, so it may nest once more. -/
theorem within (accepts : AcceptsCategory tolerated .assignment tokens tree)
    (nonempty : tokens ≠ []) (few : tokens.length ≤ bound.length)
    (ends : Category.assignment.EndsBefore rest) :
    Accepts tolerated (expressionWithin bound) surroundings tokens rest tree := by
  cases bound with
  | nil => exact absurd (List.eq_nil_of_length_eq_zero (Nat.le_zero.mp few)) nonempty
  | cons _ bound => exact accepts bound rest surroundings few ends

end AcceptsCategory

theorem accepts_assignment_reported {target value : Expr} {equals : Token.OfKind .equal}
    {left right : List Token} (allowed : tolerated .invalidAssignmentTarget)
    (not_reference : ∀ name, target ≠ .reference name)
    (target_accepts : Accepts tolerated (disjunction nested) surroundings left
      (equals.token :: (right ++ rest)) target)
    (value_accepts : Accepts tolerated nested surroundings right rest value) :
    Accepts tolerated (assignment nested) surroundings (left ++ equals.token :: right) rest
      target := by
  refine Accepts.bind target_accepts ?_
  refine Accepts.bind (accepts_acceptKind equals) ?_
  refine Accepts.bind_look value_accepts ?_
  cases target with
  | reference name => exact absurd rfl (not_reference name)
  | literal | grouping | unary | binary | logical | assign | call =>
      exact (accepts_report allowed).bind_pure rfl

theorem acceptsCategory_of_derives {category : Category} {tree : Expr}
    (derives : DerivesExpr tolerated category tokens tree) :
    AcceptsCategory tolerated category tokens tree := by
  induction derives with
  | @assign name equals tokens value value_derives ih =>
      intro bound rest surroundings few ends
      simp only [List.length_cons] at few
      have target : Accepts tolerated (disjunction (expressionWithin bound)) surroundings
          [name.token] (equals.token :: tokens ++ rest) (.reference name) := by
        apply accepts_disjunction_reference
        apply Category.endsBefore_cons
        rw [equals.kind_eq]
        decide
      have value_accepts : Accepts tolerated (expressionWithin bound) surroundings tokens rest
          value := ih.within (value_derives.tokens_ne_nil rfl) (by omega) ends
      refine Accepts.bind target ?_
      refine Accepts.bind (accepts_acceptKind equals) ?_
      exact value_accepts.bind_pure rfl
  | @misassign equals left right target value allowed target_derives not_reference
      value_derives target_ih value_ih =>
      intro bound rest surroundings few ends
      simp only [List.length_append, List.length_cons] at few
      apply accepts_assignment_reported allowed not_reference
      · apply target_ih bound _ surroundings (by omega)
        apply Category.endsBefore_cons
        rw [equals.kind_eq]
        decide
      · have left_pos := List.length_pos_iff.mpr (target_derives.tokens_ne_nil rfl)
        exact value_ih.within (value_derives.tokens_ne_nil rfl) (by omega) ends
  | unassigned _ ih =>
      intro bound rest surroundings few ends
      have target := ih bound rest surroundings few
        (ends.mono (List.subset_cons_self _ _))
      refine Accepts.bind_look target ?_
      refine (accepts_acceptKind_none ?_).bind_pure rfl
      intro token token_mem kind_eq
      exact ends token token_mem (kind_eq ▸ List.mem_cons_self)
  | @level level tokens others first tree _ others_derive first_ih others_ih =>
      intro bound rest surroundings few ends
      rw [List.length_append] at few
      have first_accepts : Accepts tolerated (operandParser (expressionWithin bound) level)
          surroundings tokens (others ++ rest) first :=
        first_ih.operand (by omega) (others_derive.endsBefore_operand ends)
      exact first_accepts.bind
        (accepts_loop (others_ih bound rest surroundings (by omega) ends))
  | chainEnd =>
      intro bound rest surroundings _ ends
      exact acceptsLoop_end (accepts_furtherOperation_none ends)
  | @chainLogical level operator tokens others left right tree operator_mem _ others_derive
      right_ih others_ih =>
      intro bound rest surroundings few ends
      simp only [List.length_cons, List.length_append] at few
      have right_accepts : Accepts tolerated (operandParser (expressionWithin bound) level)
          surroundings tokens (others ++ rest) right :=
        right_ih.operand (by omega) (others_derive.endsBefore_operand ends)
      exact acceptsLoop_more (accepts_furtherOperation_logical operator_mem right_accepts)
        (by simp) (others_ih bound rest surroundings (by omega) ends)
  | @chainBinary level operator tokens others left right tree operator_mem _ others_derive
      right_ih others_ih =>
      intro bound rest surroundings few ends
      simp only [List.length_cons, List.length_append] at few
      have right_accepts : Accepts tolerated (operandParser (expressionWithin bound) level)
          surroundings tokens (others ++ rest) right :=
        right_ih.operand (by omega) (others_derive.endsBefore_operand ends)
      exact acceptsLoop_more (accepts_furtherOperation_binary operator_mem right_accepts)
        (by simp) (others_ih bound rest surroundings (by omega) ends)
  | @unary operator tokens operand _ ih =>
      intro bound rest surroundings few ends
      rw [List.length_cons] at few
      rcases (ih bound rest surroundings (by omega) ends).2 with
        ⟨operators, operandTokens, operand, rfl, rfl, operand_derives, accepts⟩
      exact ⟨accepts_unary (operator :: operators) accepts operand_derives.exists_call_start,
        operator :: operators, operandTokens, operand, rfl, rfl, operand_derives, accepts⟩
  | @operand tokens tree derives ih =>
      intro bound rest surroundings few ends
      have accepts := ih bound rest surroundings few ends
      exact ⟨accepts_unary [] accepts derives.exists_call_start,
        [], tokens, tree, rfl, rfl, derives, accepts⟩
  | @call tokens others callee tree _ others_derive callee_ih others_ih =>
      intro bound rest surroundings few ends
      rw [List.length_append] at few
      have callee_accepts := callee_ih bound (others ++ rest) surroundings (by omega)
        (fun _ _ kind_mem => by cases kind_mem)
      exact Accepts.bind callee_accepts
        (accepts_loop (others_ih bound rest surroundings (by omega) ends))
  | callsEnd =>
      intro bound rest surroundings _ ends
      exact acceptsLoop_end (accepts_furtherCall_none ends)
  | @calls leftParen rightParen arguments inner others callee tree separated arguments_derive few
      _ arguments_ih others_ih =>
      intro bound rest surroundings few_tokens ends
      simp only [List.length_cons, List.length_append] at few_tokens
      have called : Accepts tolerated (furtherCall (expressionWithin bound) callee) surroundings
          (leftParen.token :: (inner ++ [rightParen.token])) (others ++ rest)
          (some (.call callee rightParen (arguments.map Prod.snd))) := by
        apply accepts_furtherCall leftParen rightParen separated _ _ few
        · intro argument argument_mem later later_ends
          have shorter := (separated.sublist argument.1 (List.mem_map_of_mem argument_mem)).length_le
          apply (arguments_ih argument argument_mem).within
            ((arguments_derive argument argument_mem).tokens_ne_nil rfl) (by omega)
          intro token token_mem kind_mem
          rcases later_ends token token_mem with kind_eq | kind_eq <;>
            exact absurd (kind_eq ▸ kind_mem) (by decide)
        · intro argument argument_mem
          rcases (arguments_derive argument argument_mem).exists_start rfl with
            ⟨token, more, argument_eq, starts⟩
          refine ⟨token, more, argument_eq, ?_⟩
          rintro kind_eq
          exact absurd (kind_eq ▸ starts) (by decide)
      have more := acceptsLoop_more called (by simp)
        (others_ih bound rest surroundings (by omega) ends)
      simpa using more
  | literal kind_mem =>
      intro bound rest surroundings _ _
      exact accepts_primary_literal kind_mem
  | @reference name =>
      intro bound rest surroundings _ _
      exact accepts_primary_reference name
  | @grouping leftParen rightParen tokens inner inner_derives ih =>
      intro bound rest surroundings few _
      simp only [List.length_cons, List.length_append, List.length_nil] at few
      apply accepts_primary_grouping leftParen rightParen
      apply ih.within (inner_derives.tokens_ne_nil rfl) (by omega)
      apply Category.endsBefore_cons
      rw [rightParen.kind_eq]
      decide

/-- An expression is read in front of anything that does not go on with it. -/
theorem accepts_expression {tree : Expr}
    (derives : DerivesExpr tolerated .assignment tokens tree)
    (ends : Category.assignment.EndsBefore rest) :
    Accepts tolerated expression surroundings tokens rest tree := by
  apply accepts_get_bind
  intro state rest_eq _
  apply (acceptsCategory_of_derives derives).within (derives.tokens_ne_nil rfl) _ ends
  simp [rest_eq]

end Parser

end Scriptlet
