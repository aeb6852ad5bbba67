import Scriptlet.Proofs.Grammar.Relaxed
import Scriptlet.Proofs.Parser.PredictionRules
import Scriptlet.Proofs.Parser.Recursion

/-!
# Expressions are foreseen

The first fault in an expression comes where the tokens before could still have gone on to an
expression. Faults that do not end a declaration are tolerated here, so that anything can stand
before `=` and there may be any number of arguments.
-/

namespace Scriptlet.Parser

open Grammar

variable {tolerated : Tolerance} {nested operand : Parser Expr} {room : Nat}

/-- A parser looks one token ahead and stops at a fault only where an expression of a category is
unfinished. -/
abbrev ForeseesCategory {α : Type} (room : Nat) (tolerated : Tolerance) (parser : Parser α)
    (category : Category) : Prop :=
  Foresees room tolerated .anything parser fun _ read =>
    Unfinished (DerivableExpr tolerated category) read

theorem foresees_primary (nested_reads : ReadsCategory tolerated nested .assignment)
    (nested_foresees : ForeseesCategory room tolerated nested .assignment) :
    ForeseesCategory (room + 1) tolerated (primary nested) .primary := by
  have close (inner : Expr) : Foresees room tolerated .anything
      (expectSymbol .rightParen .afterGrouping >>= fun _ => pure (Expr.grouping inner))
      fun _ read => read = [] :=
    (foresees_expectSymbol .rightParen .afterGrouping).bind_pure _
  have read : Foresees (room + 1) tolerated .anything (primary nested) _ :=
    .accept_bind (fun value => foresees_pure (Expr.literal value))
      (.acceptKind_bind (fun name => foresees_pure (Expr.reference name))
        (.acceptKind_bind (fun _ => nested_foresees.bind nested_reads close)
          (foresees_fail .missingExpression) refuses_anything)
        refuses_anything)
      refuses_anything
  apply read.mono
  rintro surroundings read
    (⟨_, _, _, _, _, impossible⟩ | ⟨_, _, _, impossible⟩ |
      ⟨leftParen, others, rfl, holds | ⟨inner, left, right, rest, rfl, derives, rfl⟩⟩ | rfl)
  · exact impossible.elim
  · exact impossible.elim
  · refine holds.within [leftParen.token] ?_
    rintro tokens ⟨inner, derives⟩
    exact ⟨[(sample .rightParen).token], .grouping inner, .grouping derives⟩
  · refine unfinished_before .rightParen (by decide) [] ⟨.grouping inner, ?_⟩
    simpa using DerivesExpr.grouping derives
  · exact unfinished_before .identifier (by decide) [] ⟨_, .reference⟩

/-- Trees for the pieces of a list. -/
theorem exists_trees {category : Category} {pieces : List (List Token)}
    (derivable : ∀ piece ∈ pieces, DerivableExpr tolerated category piece) :
    ∃ trees : List (List Token × Expr), trees.map Prod.fst = pieces ∧
      ∀ part ∈ trees, DerivesExpr tolerated category part.1 part.2 := by
  induction pieces with
  | nil => exact ⟨[], rfl, by simp⟩
  | cons piece pieces ih =>
      rw [List.forall_mem_cons] at derivable
      rcases derivable with ⟨⟨tree, derives⟩, others⟩
      rcases ih others with ⟨trees, trees_eq, derive⟩
      exact ⟨(piece, tree) :: trees, by simp [trees_eq], List.forall_mem_cons.mpr ⟨derives, derive⟩⟩

/-- What one more call adds to the tokens of a callee with calls. -/
def Calls (tolerated : Tolerance) (callee : Expr) (tokens : List Token) (next : Expr) : Prop :=
  ∀ others tree, DerivesExpr tolerated (.calls next) others tree →
    DerivesExpr tolerated (.calls callee) (tokens ++ others) tree

theorem reads_furtherCall (nested_reads : ReadsCategory tolerated nested .assignment)
    (callee : Expr) :
    Reads tolerated (furtherCall nested callee) fun _ tokens _ found =>
      ∀ next, found = some next → Calls tolerated callee tokens next := by
  have read : Reads tolerated (furtherCall nested callee) _ :=
    reads_acceptKind_bind
      (fun _ => (reads_finishCall nested_reads callee).bind fun tree => reads_pure (some tree))
      (reads_pure none)
  apply read.mono
  rintro surroundings tokens rest found
    (⟨leftParen, others, rfl, called, left, nothing, rfl,
        ⟨arguments, inner, rightParen, rfl, separated, derive, few, rfl⟩, rfl, rfl⟩ |
      ⟨_, rfl, rfl⟩) next found_eq
  · cases found_eq
    intro others tree others_derive
    simpa using DerivesExpr.calls separated derive few others_derive
  · cases found_eq

theorem foresees_furtherCall (lax : Lax tolerated)
    (nested_reads : ReadsCategory tolerated nested .assignment)
    (nested_foresees : ForeseesCategory room tolerated nested .assignment) (callee : Expr) :
    ForeseesCategory (room + 1) tolerated (furtherCall nested callee) (.calls callee) := by
  have allowed : tolerated .tooManyArguments := lax .tooManyArguments rfl
  have arguments_read : Reads tolerated nested fun _ tokens _ _ =>
      DerivableExpr tolerated .assignment tokens :=
    nested_reads.mono fun _ _ _ tree derives => ⟨tree, derives⟩
  have finish : Foresees room tolerated .anything (finishCall nested callee) fun _ read =>
      Unfinished (ClosedPieces (DerivableExpr tolerated .assignment)) read :=
    (foresees_closedList allowed arguments_read nested_foresees .afterArguments).bind_pure
      fun result => Expr.call callee result.2 result.1
  have read : Foresees (room + 1) tolerated .anything (furtherCall nested callee) _ :=
    .acceptKind_bind (fun _ => finish.bind_pure some) (foresees_pure none) refuses_anything
  apply read.mono
  rintro surroundings read (⟨leftParen, others, rfl, holds⟩ | impossible)
  · refine holds.within [leftParen.token] ?_
    rintro tokens ⟨inner, rightParen, rfl, pieces, separated, derivable⟩
    obtain ⟨arguments, rfl, derive⟩ := exists_trees derivable
    exact ⟨[], _, by simpa using .calls separated derive (.inr allowed) .callsEnd⟩
  · exact impossible.elim

theorem advances_furtherCall (nested_reads : ReadsCategory tolerated nested .assignment) :
    Advances (furtherCall nested) :=
  advances_accept (fun _ => rfl) fun callee _ =>
    ((reads_finishCall nested_reads callee).bind fun tree => reads_pure (some tree)).leads

theorem foresees_call (lax : Lax tolerated)
    (nested_reads : ReadsCategory tolerated nested .assignment)
    (nested_foresees : ForeseesCategory room tolerated nested .assignment) :
    ForeseesCategory (room + 1) tolerated (call nested) .call := by
  have looped (callee : Expr) : ForeseesCategory (room + 1) tolerated
      (loop (furtherCall nested) callee) (.calls callee) := by
    apply foresees_loop (advances_furtherCall nested_reads) (reads_furtherCall nested_reads)
      (foresees_furtherCall lax nested_reads nested_foresees)
    · exact fun callee surroundings read holds => holds
    · rintro callee next surroundings left right rest holds later
      refine later.within left ?_
      rintro tokens ⟨tree, derives⟩
      exact ⟨[], tree, by simpa using holds next rfl tokens tree derives⟩
  rw [call_eq]
  apply ((foresees_primary nested_reads nested_foresees).bind (reads_primary nested_reads)
    looped).mono
  rintro surroundings read (holds | ⟨callee, left, right, rest, rfl, derives, later⟩)
  · refine holds.mono ?_
    rintro tokens ⟨callee, derives⟩
    exact ⟨callee, by simpa using DerivesExpr.call derives .callsEnd⟩
  · refine later.within left ?_
    rintro tokens ⟨tree, others_derive⟩
    exact ⟨[], tree, by simpa using DerivesExpr.call derives others_derive⟩

/-- Tokens of a class that follow each other are items. -/
theorem itemAdvances_accept {γ : Type} (classify : Token → Option γ) :
    ItemAdvances (accept classify) := by
  apply itemAdvances_of_reads (fun state ended => accept_nil ended) (reads_accept _)
  rintro surroundings tokens rest operator (⟨token, value, rfl, _⟩ | ⟨_, _, impossible⟩)
  · simp
  · cases impossible

theorem foresees_unary (lax : Lax tolerated)
    (nested_reads : ReadsCategory tolerated nested .assignment)
    (nested_foresees : ForeseesCategory room tolerated nested .assignment) :
    ForeseesCategory (room + 1) tolerated (unary nested) .unary := by
  have operators_foreseen : Foresees (room + 1) tolerated .anything
      (many (accept (Operator.of? UnaryOperator.kind · unaryOperators))) fun _ _ => False :=
    foresees_many (itemAdvances_accept _) (reads_accept _) (foresees_accept _)
      (fun _ _ impossible => impossible) fun _ _ _ _ _ _ impossible => impossible
  have operand (operators : List (Operator UnaryOperator.kind)) :=
    (foresees_call lax nested_reads nested_foresees).bind_pure fun operand =>
      operators.foldr Expr.unary operand
  apply (operators_foreseen.bind reads_operators operand).mono
  rintro surroundings read (impossible | ⟨operators, left, right, rest, rfl, rfl, holds⟩)
  · exact impossible.elim
  · refine holds.within _ ?_
    rintro tokens ⟨tree, derives⟩
    exact ⟨[], _, by simpa using derivesExpr_foldr_unary (.operand derives) operators⟩

theorem advances_further {Operation : Type} {operator? : Token → Option Operation}
    {join : Expr → Operation → Expr → Expr} {operand : Parser Expr}
    (leads : ∀ before : State, before.Leads (stop operand before)) :
    Advances (further operator? join operand) :=
  advances_accept (fun _ => rfl) fun left operation =>
    leads_bind leads fun right before =>
      (reads_pure (some (join left operation right)) : Reads strict _ _).leads before

/-- Operators of one level, given how a token becomes an operator and how operands are joined. -/
theorem foresees_leftAssociative {Operation : Type} {operator? : Token → Option Operation}
    {join : Expr → Operation → Expr → Expr} {level : Level}
    (operand_reads : ReadsCategory tolerated operand level.operand)
    (operand_foresees : ForeseesCategory (room + 1) tolerated operand level.operand)
    (joins : ∀ {token : Token} {operation : Operation} {left right tree : Expr}
      {tokens others : List Token}, operator? token = some operation →
      DerivesExpr tolerated level.operand tokens right →
      DerivesExpr tolerated (.chain level (join left operation right)) others tree →
      DerivesExpr tolerated (.chain level left) (token :: (tokens ++ others)) tree) :
    ForeseesCategory (room + 1) tolerated (leftAssociative operator? join operand)
      (.level level) := by
  have step_reads (left : Expr) : Reads tolerated (further operator? join operand left)
      fun _ tokens _ found => ∀ next, found = some next → ∀ others tree,
        DerivesExpr tolerated (.chain level next) others tree →
        DerivesExpr tolerated (.chain level left) (tokens ++ others) tree := by
    have read : Reads tolerated (further operator? join operand left) _ :=
      reads_accept_bind
        (fun operation => Reads.bind operand_reads fun right =>
          reads_pure (some (join left operation right)))
        (reads_pure none)
    apply read.mono
    rintro surroundings tokens rest found
      (⟨token, operation, others, rfl, classified, right, read, nothing, rfl, derives, rfl, rfl⟩ |
        ⟨_, rfl, rfl⟩) next found_eq
    · cases found_eq
      intro others tree others_derive
      simpa using joins classified derives others_derive
    · cases found_eq
  have steps (left : Expr) : ForeseesCategory (room + 1) tolerated
      (further operator? join operand left) (.chain level left) := by
    have read : Foresees (room + 1) tolerated .anything (further operator? join operand left) _ :=
      .accept_bind
        (fun operation => (operand_foresees.fewer (Nat.le_succ room)).bind_pure fun right =>
          some (join left operation right))
        (foresees_pure none) refuses_anything
    apply read.mono
    rintro surroundings read (⟨token, operation, others, rfl, classified, holds⟩ | impossible)
    · refine holds.within [token] ?_
      rintro tokens ⟨right, derives⟩
      exact ⟨[], _, by simpa using joins classified derives .chainEnd⟩
    · exact impossible.elim
  have advances : Advances (further operator? join operand) := advances_further operand_reads.leads
  have looped (first : Expr) : ForeseesCategory (room + 1) tolerated
      (loop (further operator? join operand) first) (.chain level first) := by
    apply foresees_loop advances step_reads steps
    · exact fun left surroundings read holds => holds
    · rintro left next surroundings before after rest holds later
      refine later.within before ?_
      rintro tokens ⟨tree, derives⟩
      exact ⟨[], tree, by simpa using holds next rfl tokens tree derives⟩
  apply (operand_foresees.bind operand_reads looped).mono
  rintro surroundings read (holds | ⟨first, left, right, rest, rfl, derives, later⟩)
  · refine holds.mono ?_
    rintro tokens ⟨first, derives⟩
    exact ⟨first, by simpa using DerivesExpr.level derives .chainEnd⟩
  · refine later.within left ?_
    rintro tokens ⟨tree, others_derive⟩
    exact ⟨[], tree, by simpa using DerivesExpr.level derives others_derive⟩

theorem foresees_logical (level : Level) {operator : LogicalOperator}
    (operators_eq : level.logicalOperators = [operator])
    (operand_reads : ReadsCategory tolerated operand level.operand)
    (operand_foresees : ForeseesCategory (room + 1) tolerated operand level.operand) :
    ForeseesCategory (room + 1) tolerated (logical operator operand) (.level level) := by
  apply foresees_leftAssociative operand_reads operand_foresees
  intro token operation left right tree tokens others classified right_derives others_derive
  rcases Operator.token_eq_of_of? classified with ⟨rfl, meaning_mem⟩
  exact .chainLogical (operators_eq ▸ meaning_mem) right_derives others_derive

theorem foresees_binary (level : Level) {tighter : List (List BinaryOperator)}
    (operand_reads : ReadsCategory tolerated (binary operand tighter) level.operand)
    (operand_foresees :
      ForeseesCategory (room + 1) tolerated (binary operand tighter) level.operand) :
    ForeseesCategory (room + 1) tolerated (binary operand (level.binaryOperators :: tighter))
      (.level level) := by
  apply foresees_leftAssociative operand_reads operand_foresees
  intro token operation left right tree tokens others classified right_derives others_derive
  rcases Operator.token_eq_of_of? classified with ⟨rfl, meaning_mem⟩
  exact .chainBinary meaning_mem right_derives others_derive

theorem foresees_disjunction (lax : Lax tolerated)
    (nested_reads : ReadsCategory tolerated nested .assignment)
    (nested_foresees : ForeseesCategory room tolerated nested .assignment) :
    ForeseesCategory (room + 1) tolerated (disjunction nested) (.level .disjunction) := by
  have unary_reads : ReadsCategory tolerated (binary (unary nested) []) .unary :=
    reads_unary nested_reads
  have product_reads := reads_binary .product unary_reads
  have sum_reads := reads_binary .sum product_reads
  have comparison_reads := reads_binary .comparison sum_reads
  have equality_reads := reads_binary .equality comparison_reads
  have operand : ForeseesCategory (room + 1) tolerated (binary (unary nested) []) .unary :=
    foresees_unary lax nested_reads nested_foresees
  have product := foresees_binary .product unary_reads operand
  have sum := foresees_binary .sum product_reads product
  have comparison := foresees_binary .comparison sum_reads sum
  have equality := foresees_binary .equality comparison_reads comparison
  exact foresees_logical .disjunction rfl (reads_logical .conjunction rfl equality_reads)
    (foresees_logical .conjunction rfl equality_reads equality)

theorem foresees_assigned (lax : Lax tolerated) (target : Expr) (equals : Token.OfKind .equal)
    (value : Expr) :
    Foresees room tolerated .anything (assigned target equals value) fun _ _ => False := by
  unfold assigned
  split
  · exact foresees_pure _
  · exact (foresees_report (lax .invalidAssignmentTarget rfl) rfl).bind_pure fun _ => target

theorem foresees_assignment (lax : Lax tolerated)
    (nested_reads : ReadsCategory tolerated nested .assignment)
    (nested_foresees : ForeseesCategory room tolerated nested .assignment) :
    ForeseesCategory (room + 1) tolerated (assignment nested) .assignment := by
  have read : Foresees (room + 1) tolerated .anything (assignment nested) _ :=
    (foresees_disjunction lax nested_reads nested_foresees).bind (reads_disjunction nested_reads)
      fun target => .acceptKind_bind
        (fun equals => nested_foresees.bind nested_reads fun value =>
          foresees_assigned lax target equals value)
        (foresees_pure target) refuses_anything
  apply read.mono
  rintro surroundings read
    (holds | ⟨target, left, right, rest, rfl, target_derives,
      ⟨equals, others, rfl, holds | ⟨_, _, _, _, _, _, impossible⟩⟩ | impossible⟩)
  · refine holds.mono ?_
    rintro tokens ⟨tree, derives⟩
    exact ⟨tree, .unassigned derives⟩
  · have whole : left ++ equals.token :: others = (left ++ [equals.token]) ++ others := by simp
    rw [whole]
    refine holds.within (left ++ [equals.token]) fun tokens value => ⟨[], ?_⟩
    simpa using derivableExpr_assignment lax equals target_derives value
  · exact impossible.elim
  · exact impossible.elim

/-- An expression is foreseen where fewer tokens are left for the expressions nested in it. -/
theorem foresees_expression (lax : Lax tolerated) :
    ForeseesCategory room tolerated expression .assignment := by
  induction room with
  | zero => exact .zero (@reads_expression strict).leads
  | succ room ih =>
      rw [expression_eq]
      exact foresees_assignment lax reads_expression ih

end Scriptlet.Parser
