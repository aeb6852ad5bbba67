import Scriptlet.Proofs.Parser.Reading

/-!
# Expressions are read as the grammar derives them

Each reading level gives only trees that the grammar derives from the tokens that were read, under
the tolerance for which the reported errors are no surprise.
-/

namespace Scriptlet.Parser

open Grammar

variable {tolerated : Tolerance} {nested operand : Parser Expr}

/-- A parser reads the expressions of a category. -/
abbrev ReadsCategory (tolerated : Tolerance) (parser : Parser Expr) (category : Category) : Prop :=
  Reads tolerated parser fun _ tokens _ tree => DerivesExpr tolerated category tokens tree

theorem literalOf?_eq_some_iff {token : Token} {value : Literal} :
    literalOf? token = some value ↔
      token.kind ∈ literalKinds ∧ token.literal.getD .nil = value := by
  cases kind_eq : token.kind <;> simp [literalOf?, literalKinds, kind_eq]

theorem literalOf?_eq_none_iff {token : Token} :
    literalOf? token = none ↔ token.kind ∉ literalKinds := by
  cases kind_eq : token.kind <;> simp [literalOf?, literalKinds, kind_eq]

theorem reads_primary (nested_reads : ReadsCategory tolerated nested .assignment) :
    ReadsCategory tolerated (primary nested) .primary := by
  refine (reads_accept_bind (fun value => reads_pure (Expr.literal value))
    (reads_acceptKind_bind (fun name => reads_pure (Expr.reference name))
      (reads_acceptKind_bind
        (fun _ => nested_reads.bind fun inner =>
          (reads_expectSymbol .rightParen .afterGrouping).bind fun _ =>
            reads_pure (Expr.grouping inner))
        (reads_fail rfl)))).mono ?_
  rintro surroundings tokens rest tree
    (⟨token, value, others, rfl, classified, rfl, rfl⟩ |
      ⟨_, ⟨name, others, rfl, rfl, rfl⟩ |
        ⟨_, ⟨leftParen, others, rfl, inner, left, right, rfl, derives, rightParen, close, nothing,
          rfl, rfl, rfl, rfl⟩ | ⟨_, impossible⟩⟩⟩)
  · rcases literalOf?_eq_some_iff.mp classified with ⟨kind_mem, rfl⟩
    exact .literal kind_mem
  · exact .reference
  · exact .grouping derives
  · exact impossible.elim

theorem reads_finishCall (nested_reads : ReadsCategory tolerated nested .assignment)
    (callee : Expr) :
    Reads tolerated (finishCall nested callee) fun _ tokens _ tree =>
      ∃ (arguments : List (List Token × Expr)) (inner : List Token)
        (rightParen : Token.OfKind .rightParen),
        tokens = inner ++ [rightParen.token] ∧ Separated (arguments.map Prod.fst) inner ∧
        (∀ argument ∈ arguments, DerivesExpr tolerated .assignment argument.1 argument.2) ∧
        (arguments.length ≤ maxArity ∨ tolerated .tooManyArguments) ∧
        tree = .call callee rightParen (arguments.map Prod.snd) := by
  refine ((reads_closedList nested_reads .afterArguments).bind fun result =>
    reads_pure (Expr.call callee result.2 result.1)).mono ?_
  rintro surroundings tokens rest tree
    ⟨⟨values, rightParen⟩, left, right, rfl, ⟨arguments, inner, rfl, separated, rfl, derive, few⟩,
      rfl, rfl⟩
  refine ⟨arguments, inner, rightParen, by simp, separated, ?_, few, rfl⟩
  intro argument argument_mem
  rcases derive argument argument_mem with ⟨_, derives⟩
  exact derives

theorem reads_call (nested_reads : ReadsCategory tolerated nested .assignment) :
    ReadsCategory tolerated (call nested) .call := by
  refine ((reads_primary nested_reads).bind fun callee =>
    reads_loop
      (fun callee _ tokens _ tree => DerivesExpr tolerated (.calls callee) tokens tree)
      (fun callee => reads_acceptKind_bind
        (fun _ => (reads_finishCall nested_reads callee).bind fun tree => reads_pure (some tree))
        (reads_pure none))
      ?_ ?_ ?_ ?_ callee).mono ?_
  · rintro callee next surroundings tokens rest
      (⟨leftParen, others, rfl, _⟩ | ⟨_, rfl, impossible⟩)
    · simp
    · cases impossible
  · intro callee _
    exact .callsEnd
  · rintro callee surroundings tokens rest
      (⟨leftParen, others, rfl, tree, left, right, rfl, _, rfl, impossible⟩ | ⟨_, rfl, _⟩)
    · cases impossible
    · exact .callsEnd
  · rintro callee next tree surroundings left right rest
      (⟨leftParen, others, rfl, called, read, nothing, rfl,
          ⟨arguments, inner, rightParen, rfl, separated, derive, few, rfl⟩, rfl, next_eq⟩ |
        ⟨_, rfl, impossible⟩) others_derive
    · cases next_eq
      simpa using DerivesExpr.calls separated derive few others_derive
    · cases impossible
  · rintro surroundings tokens rest tree ⟨callee, left, right, rfl, callee_derives, others_derive⟩
    exact .call callee_derives others_derive

theorem derivesExpr_foldr_unary {tokens : List Token} {operand : Expr}
    (derives : DerivesExpr tolerated .unary tokens operand)
    (operators : List (Operator UnaryOperator.kind)) :
    DerivesExpr tolerated .unary (operators.map (·.token) ++ tokens)
      (operators.foldr .unary operand) := by
  induction operators with
  | nil => exact derives
  | cons operator operators ih => exact .unary ih

theorem reads_operators :
    Reads tolerated (many (accept (Operator.of? UnaryOperator.kind · unaryOperators)))
      fun _ tokens _ operators => tokens = operators.map (·.token) := by
  refine (reads_many (reads_accept _) ?_ ?_).mono ?_
  · rintro surroundings tokens rest operator (⟨token, value, rfl, _⟩ | ⟨_, _, impossible⟩)
    · simp
    · cases impossible
  · rintro surroundings tokens rest (⟨token, value, _, _, impossible⟩ | ⟨_, rfl, _⟩)
    · cases impossible
    · rfl
  · rintro surroundings tokens rest operators ⟨parts, rfl, rfl, single, _⟩
    rw [List.map_map, List.map_eq_flatMap, List.flatMap_def, List.flatMap_def]
    apply congrArg List.flatten
    apply List.map_congr_left
    intro part part_mem
    rcases single part part_mem with
      ⟨_, ⟨token, value, part_eq, classified, value_eq⟩ | ⟨_, _, impossible⟩⟩
    · cases value_eq
      rw [part_eq, Function.comp_apply, (Operator.token_eq_of_of? classified).1]
    · cases impossible

theorem reads_unary (nested_reads : ReadsCategory tolerated nested .assignment) :
    ReadsCategory tolerated (unary nested) .unary := by
  refine (reads_operators.bind fun operators => (reads_call nested_reads).bind fun operand =>
    reads_pure (operators.foldr Expr.unary operand)).mono ?_
  rintro surroundings tokens rest tree
    ⟨operators, _, right, rfl, rfl, operand, read, nothing, rfl, derives, rfl, rfl⟩
  rw [List.append_nil]
  exact derivesExpr_foldr_unary (.operand derives) operators

/-- Operators of one level, given how a token becomes an operator and how operands are joined. -/
theorem reads_leftAssociative {Operation : Type} {operator? : Token → Option Operation}
    {join : Expr → Operation → Expr → Expr} {level : Level}
    (operand_reads : ReadsCategory tolerated operand level.operand)
    (joins : ∀ {token : Token} {operation : Operation} {left right tree : Expr}
      {tokens others : List Token}, operator? token = some operation →
      DerivesExpr tolerated level.operand tokens right →
      DerivesExpr tolerated (.chain level (join left operation right)) others tree →
      DerivesExpr tolerated (.chain level left) (token :: (tokens ++ others)) tree) :
    ReadsCategory tolerated (leftAssociative operator? join operand) (.level level) := by
  refine (Reads.bind operand_reads fun first =>
    reads_loop
      (fun left _ tokens _ tree => DerivesExpr tolerated (.chain level left) tokens tree)
      (fun left => reads_accept_bind
        (fun operation => Reads.bind operand_reads fun right =>
          reads_pure (some (join left operation right)))
        (reads_pure none))
      ?_ ?_ ?_ ?_ first).mono ?_
  · rintro left next surroundings tokens rest
      (⟨token, operation, others, rfl, _⟩ | ⟨_, rfl, impossible⟩)
    · simp
    · cases impossible
  · intro left _
    exact .chainEnd
  · rintro left surroundings tokens rest
      (⟨token, operation, others, rfl, _, right, read, nothing, rfl, _, rfl, impossible⟩ |
        ⟨_, rfl, _⟩)
    · cases impossible
    · exact .chainEnd
  · rintro left next tree surroundings before after rest
      (⟨token, operation, others, rfl, classified, right, read, nothing, rfl, derives, rfl,
          next_eq⟩ | ⟨_, rfl, impossible⟩) others_derive
    · cases next_eq
      simpa using joins classified derives others_derive
    · cases impossible
  · rintro surroundings tokens rest tree ⟨first, left, right, rfl, first_derives, others_derive⟩
    exact .level first_derives others_derive

theorem reads_logical (level : Level) {operator : LogicalOperator}
    (operators_eq : level.logicalOperators = [operator])
    (operand_reads : ReadsCategory tolerated operand level.operand) :
    ReadsCategory tolerated (logical operator operand) (.level level) := by
  apply reads_leftAssociative operand_reads
  intro token operation left right tree tokens others classified right_derives others_derive
  rcases Operator.token_eq_of_of? classified with ⟨rfl, meaning_mem⟩
  exact .chainLogical (operators_eq ▸ meaning_mem) right_derives others_derive

theorem reads_binary (level : Level) {tighter : List (List BinaryOperator)}
    (operand_reads : ReadsCategory tolerated (binary operand tighter) level.operand) :
    ReadsCategory tolerated (binary operand (level.binaryOperators :: tighter))
      (.level level) := by
  apply reads_leftAssociative operand_reads
  intro token operation left right tree tokens others classified right_derives others_derive
  rcases Operator.token_eq_of_of? classified with ⟨rfl, meaning_mem⟩
  exact .chainBinary meaning_mem right_derives others_derive

theorem reads_disjunction (nested_reads : ReadsCategory tolerated nested .assignment) :
    ReadsCategory tolerated (disjunction nested) (.level .disjunction) := by
  have operand : ReadsCategory tolerated (binary (unary nested) []) .unary :=
    reads_unary nested_reads
  have product := reads_binary .product operand
  have sum := reads_binary .sum product
  have comparison := reads_binary .comparison sum
  have equality := reads_binary .equality comparison
  exact reads_logical .disjunction rfl (reads_logical .conjunction rfl equality)

theorem reads_assigned (target : Expr) (equals : Token.OfKind .equal) (value : Expr) :
    Reads tolerated (assigned target equals value) fun _ tokens _ tree => tokens = [] ∧
      ((∃ name, target = .reference name ∧ tree = .assign name value) ∨
        ((∀ name, target ≠ .reference name) ∧ tolerated .invalidAssignmentTarget ∧
          tree = target)) := by
  unfold assigned
  split
  · apply (reads_pure _).mono
    rintro surroundings tokens rest tree ⟨rfl, rfl⟩
    exact ⟨rfl, .inl ⟨_, rfl, rfl⟩⟩
  · rename_i not_reference
    apply ((reads_report _).bind fun _ => reads_pure target).mono
    rintro surroundings tokens rest tree ⟨_, _, _, rfl, ⟨rfl, allowed⟩, rfl, rfl⟩
    exact ⟨rfl, .inr ⟨not_reference, allowed, rfl⟩⟩

theorem reads_assignment (nested_reads : ReadsCategory tolerated nested .assignment) :
    ReadsCategory tolerated (assignment nested) .assignment := by
  refine ((reads_disjunction nested_reads).bind fun target =>
    reads_acceptKind_bind
      (fun equals => Reads.bind nested_reads fun value => reads_assigned target equals value)
      (reads_pure target)).mono ?_
  rintro surroundings tokens rest tree
    ⟨target, left, right, rfl, target_derives,
      ⟨equals, others, rfl, value, read, nothing, rfl, value_derives, rfl, assignment⟩ |
        ⟨_, rfl, rfl⟩⟩
  · simp only [List.append_nil]
    rcases assignment with ⟨name, rfl, rfl⟩ | ⟨not_reference, allowed, rfl⟩
    · rw [(target_derives.tokens_of_reference rfl).1 rfl]
      exact .assign value_derives
    · exact .misassign allowed target_derives not_reference value_derives
  · simpa using DerivesExpr.unassigned target_derives

theorem reads_expressionWithin (bound : List Token) :
    ReadsCategory tolerated (expressionWithin bound) .assignment := by
  induction bound with
  | nil => exact (reads_fail rfl).mono fun _ _ _ _ impossible => impossible.elim
  | cons _ bound ih => exact reads_assignment ih

theorem reads_expression : ReadsCategory tolerated expression .assignment := by
  apply (reads_get_bind fun before => reads_expressionWithin before.rest).mono
  rintro surroundings tokens rest tree ⟨_, _, derives⟩
  exact derives

end Scriptlet.Parser
