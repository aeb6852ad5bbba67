import Scriptlet.Proofs.Grammar.WriteBack

/-!
# Expressions derived from their own tokens

Whatever faults an expression was derived with, it is the expression that its own tokens derive: a
tree never nests a looser operator inside a tighter one without parentheses, and the target of a
faulty assignment is left out of it together with the value. Only the number of arguments may still
be a fault.
-/

namespace Scriptlet.Grammar

variable {tolerated : Tolerance}

/-- Any number of arguments is tolerated, and nothing else. -/
def crowded : Tolerance := fun cause => cause = .tooManyArguments

/-- The token of a kind that has only one spelling, with its kind. -/
def known (kind : Token.Kind) : Token.OfKind kind :=
  ⟨Token.plain kind, rfl⟩

theorem separated_separate (pieces : List (List Token)) : Separated pieces (separate pieces) := by
  induction pieces with
  | nil => exact .empty
  | cons piece pieces ih =>
      cases pieces with
      | nil => exact .single
      | cons next others =>
          have commas : Separated (piece :: next :: others)
              (piece ++ (known .comma).token :: separate (next :: others)) := .comma ih
          exact commas

theorem kind_mem_literalKinds (value : Literal) : value.kind ∈ literalKinds := by
  cases value with
  | boolean value => cases value <;> decide
  | nil | number | string => simp [Literal.kind, literalKinds]

/-- What is left of the tokens of a tree after the expression that a category goes on with derives
this tree in the category. -/
theorem DerivesExpr.rewrite {category : Category} {tokens : List Token} {tree : Expr}
    (derives : DerivesExpr tolerated category tokens tree) :
    ∃ others, category.before ++ others = tree.tokens ∧
      DerivesExpr crowded category others tree := by
  induction derives with
  | @assign name equals tokens value _ ih =>
      rcases ih with ⟨others, tokens_eq, derives⟩
      have tokens_eq : others = value.tokens := tokens_eq
      subst tokens_eq
      have assigned : DerivesExpr crowded .assignment
          (name.token :: (known .equal).token :: value.tokens) (.assign name value) :=
        .assign derives
      exact ⟨_, rfl, assigned⟩
  | misassign _ _ _ _ target_ih =>
      rcases target_ih with ⟨others, tokens_eq, derives⟩
      exact ⟨others, tokens_eq, .unassigned derives⟩
  | unassigned _ ih =>
      rcases ih with ⟨others, tokens_eq, derives⟩
      exact ⟨others, tokens_eq, .unassigned derives⟩
  | @level level _ _ first tree _ _ first_ih others_ih =>
      rcases first_ih with ⟨firstTokens, first_eq, first_derives⟩
      rcases others_ih with ⟨others, tokens_eq, others_derive⟩
      rw [Category.before_operand, List.nil_append] at first_eq
      subst first_eq
      exact ⟨first.tokens ++ others, tokens_eq, .level first_derives others_derive⟩
  | chainEnd => exact ⟨[], List.append_nil _, .chainEnd⟩
  | @chainLogical level operator _ _ left right tree operator_mem _ _ right_ih others_ih =>
      rcases right_ih with ⟨rightTokens, right_eq, right_derives⟩
      rcases others_ih with ⟨others, tokens_eq, others_derive⟩
      rw [Category.before_operand, List.nil_append] at right_eq
      subst right_eq
      refine ⟨operator.token :: (right.tokens ++ others), ?_,
        .chainLogical operator_mem right_derives others_derive⟩
      rw [← tokens_eq]
      simp [Category.before, Expr.tokens]
  | @chainBinary level operator _ _ left right tree operator_mem _ _ right_ih others_ih =>
      rcases right_ih with ⟨rightTokens, right_eq, right_derives⟩
      rcases others_ih with ⟨others, tokens_eq, others_derive⟩
      rw [Category.before_operand, List.nil_append] at right_eq
      subst right_eq
      refine ⟨operator.token :: (right.tokens ++ others), ?_,
        .chainBinary operator_mem right_derives others_derive⟩
      rw [← tokens_eq]
      simp [Category.before, Expr.tokens]
  | @unary operator _ operand _ ih =>
      rcases ih with ⟨others, tokens_eq, derives⟩
      have tokens_eq : others = operand.tokens := tokens_eq
      subst tokens_eq
      exact ⟨_, rfl, .unary derives⟩
  | operand _ ih =>
      rcases ih with ⟨others, tokens_eq, derives⟩
      exact ⟨others, tokens_eq, .operand derives⟩
  | @call _ _ callee tree _ _ callee_ih others_ih =>
      rcases callee_ih with ⟨calleeTokens, callee_eq, callee_derives⟩
      rcases others_ih with ⟨others, tokens_eq, others_derive⟩
      have callee_eq : calleeTokens = callee.tokens := callee_eq
      subst callee_eq
      exact ⟨callee.tokens ++ others, tokens_eq, .call callee_derives others_derive⟩
  | callsEnd => exact ⟨[], List.append_nil _, .callsEnd⟩
  | @calls leftParen rightParen arguments _ _ callee tree _ _ _ _ arguments_ih others_ih =>
      rcases others_ih with ⟨others, tokens_eq, others_derive⟩
      -- Each argument goes with its own tokens now.
      have own_trees : (arguments.map fun argument => (argument.2.tokens, argument.2)).map Prod.snd
          = arguments.map Prod.snd := by
        rw [List.map_map]
        rfl
      have own_tokens : (arguments.map fun argument => (argument.2.tokens, argument.2)).map Prod.fst
          = Expr.argumentTokens (arguments.map Prod.snd) := by
        rw [Expr.argumentTokens_eq, List.map_map, List.map_map]
        rfl
      have derive : ∀ argument ∈ arguments.map fun argument => (argument.2.tokens, argument.2),
          DerivesExpr crowded .assignment argument.1 argument.2 := by
        intro argument argument_mem
        rcases List.mem_map.mp argument_mem with ⟨own, own_mem, rfl⟩
        rcases arguments_ih own own_mem with ⟨ownTokens, own_eq, own_derives⟩
        have own_eq : ownTokens = own.2.tokens := own_eq
        subst own_eq
        exact own_derives
      rw [← own_trees] at others_derive
      have called : DerivesExpr crowded (.calls callee) ((known .leftParen).token ::
          (separate (Expr.argumentTokens (arguments.map Prod.snd)) ++ rightParen.token :: others))
          tree := .calls (own_tokens ▸ separated_separate _) derive (.inr rfl) others_derive
      refine ⟨_, ?_, called⟩
      rw [← tokens_eq]
      simp [Category.before, Expr.tokens, known]
  | @literal token kind_mem =>
      have denoted : DerivesExpr crowded .primary [Token.ofLiteral (token.literal.getD .nil)]
          (.literal ((Token.ofLiteral (token.literal.getD .nil)).literal.getD .nil)) :=
        .literal (kind_mem_literalKinds _)
      exact ⟨_, rfl, denoted⟩
  | @reference name => exact ⟨[name.token], rfl, .reference⟩
  | @grouping leftParen rightParen _ inner _ ih =>
      rcases ih with ⟨others, tokens_eq, derives⟩
      have tokens_eq : others = inner.tokens := tokens_eq
      subst tokens_eq
      have grouped : DerivesExpr crowded .primary
          ((known .leftParen).token :: (inner.tokens ++ [(known .rightParen).token]))
          (.grouping inner) := .grouping derives
      exact ⟨_, rfl, grouped⟩

/-- Every expression that was derived is derived from its own tokens. -/
theorem DerivesExpr.derives_tokens {tokens : List Token} {tree : Expr}
    (derives : DerivesExpr tolerated .assignment tokens tree) :
    DerivesExpr crowded .assignment tree.tokens tree := by
  rcases derives.rewrite with ⟨others, tokens_eq, derives⟩
  have tokens_eq : others = tree.tokens := tokens_eq
  subst tokens_eq
  exact derives

end Scriptlet.Grammar
