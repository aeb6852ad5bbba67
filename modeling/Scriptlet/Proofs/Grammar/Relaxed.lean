import Scriptlet.Proofs.Grammar.Statement

/-!
# The relaxed grammar

The faults that do not end a declaration are tolerated here. So there may be `=` after any
disjunction, any number of arguments and parameters, and a jump anywhere. An `else` may follow any
statement after the condition of an `if`, too: if it does not belong to this `if`, it belongs to one
in the statement.
-/

namespace Scriptlet.Grammar

variable {tolerated : Tolerance}

/-- Faults that do not end a declaration are tolerated. -/
def Lax (tolerated : Tolerance) : Prop :=
  ∀ cause : SyntaxError.Cause, cause.isFatal = false → tolerated cause

/-- Just the faults that do not end a declaration are tolerated. -/
def relaxed : Tolerance := fun cause => cause.isFatal = false

theorem lax_relaxed : Lax relaxed := fun _ harmless => harmless

theorem not_skips_relaxed : ¬Skips relaxed := by
  rintro ⟨cause, fatal, harmless⟩
  rw [harmless] at fatal
  cases fatal

/-- Every fault is tolerated. -/
def everything : Tolerance := fun _ => True

theorem lax_everything : Lax everything := fun _ _ => trivial

/-- Tokens that stand for some expression of a category. -/
def DerivableExpr (tolerated : Tolerance) (category : Category) (tokens : List Token) : Prop :=
  ∃ tree, DerivesExpr tolerated category tokens tree

/-- Any disjunction before `=` makes an assignment, possibly one that is reported. -/
theorem derivableExpr_assignment (lax : Lax tolerated) (equals : Token.OfKind .equal)
    {left right : List Token} {target : Expr}
    (target_derives : DerivesExpr tolerated (.level .disjunction) left target)
    (value : DerivableExpr tolerated .assignment right) :
    DerivableExpr tolerated .assignment (left ++ equals.token :: right) := by
  rcases value with ⟨value, value_derives⟩
  by_cases reference : ∃ name, target = .reference name
  · rcases reference with ⟨name, rfl⟩
    rw [(target_derives.tokens_of_reference rfl).1 rfl]
    exact ⟨_, .assign value_derives⟩
  · rw [not_exists] at reference
    exact ⟨target, .misassign (lax .invalidAssignmentTarget rfl) target_derives reference
      value_derives⟩

/-- Where jumps may stand anywhere, it does not matter what a statement stands in. -/
theorem DerivesStmt.anywhere (lax : Lax tolerated) {form : Form} {surroundings : Surroundings}
    {tokens : List Token} {tree : Stmt}
    (derives : DerivesStmt tolerated form surroundings tokens tree) (others : Surroundings) :
    DerivesStmt tolerated form others tokens tree := by
  induction derives generalizing others with
  | declareVariable derives => exact .declareVariable derives
  | declareFunction separated few parts_derive skips _ =>
      exact .declareFunction separated few parts_derive skips
  | undeclared _ ih => exact .undeclared (ih others)
  | expression derives => exact .expression derives
  | print derives => exact .print derives
  | sleep derives => exact .sleep derives
  | ifThen condition_derives _ ih => exact .ifThen condition_derives (ih others)
  | ifElse condition_derives _ closed _ ih alternative_ih =>
      exact .ifElse condition_derives (ih others) closed (alternative_ih others)
  | whileLoop condition_derives _ ih => exact .whileLoop condition_derives (ih _)
  | forLoop initializer_derives condition_derives increment_derives _ ih =>
      exact .forLoop initializer_derives condition_derives increment_derives (ih _)
  | @breakLoop _ keyword => exact .breakLoop (.inr (lax (.jumpOutsideLoop keyword.lexeme) rfl))
  | @continueLoop _ keyword =>
      exact .continueLoop (.inr (lax (.jumpOutsideLoop keyword.lexeme) rfl))
  | returnValue _ value_derives =>
      exact .returnValue (.inr (lax .returnOutsideFunction rfl)) value_derives
  | block parts_derive skips ih =>
      exact .block (fun part part_mem statement statement_mem =>
        ih part part_mem statement statement_mem others) skips

/-- Tokens that stand for some statement of a form. -/
def DerivableStmt (tolerated : Tolerance) (form : Form) (surroundings : Surroundings)
    (tokens : List Token) : Prop :=
  ∃ tree, DerivesStmt tolerated form surroundings tokens tree

section Else

variable {surroundings : Surroundings} {consequenceTokens alternativeTokens : List Token}

/-- An `else` after a statement belongs to the last `if` that is open there. -/
theorem DerivesStmt.with_else (lax : Lax tolerated) (elseWord : Token.OfKind .elseWord)
    {form : Form} {consequence : Stmt}
    (derives : DerivesStmt tolerated form surroundings consequenceTokens consequence)
    (opened : consequence.endsOpen = true)
    (alternative : DerivableStmt tolerated .statement surroundings alternativeTokens) :
    DerivableStmt tolerated form surroundings
      (consequenceTokens ++ elseWord.token :: alternativeTokens) := by
  induction derives with
  | declareVariable | declareFunction | expression | print | sleep | breakLoop | continueLoop
  | returnValue | block => cases opened
  | undeclared _ ih =>
      obtain ⟨tree, derives⟩ := ih opened alternative
      exact ⟨tree, .undeclared derives⟩
  | @ifThen _ _ _ _ _ _ _ consequence condition_derives consequence_derives ih =>
      cases inner : consequence.endsOpen with
      | true =>
          obtain ⟨tree, derives⟩ := ih inner alternative
          exact ⟨_, by simpa using DerivesStmt.ifThen condition_derives derives⟩
      | false =>
          obtain ⟨tree, derives⟩ := alternative
          exact ⟨_, by
            simpa using DerivesStmt.ifElse condition_derives consequence_derives inner derives⟩
  | ifElse condition_derives consequence_derives closed _ _ ih =>
      obtain ⟨tree, derives⟩ := ih opened alternative
      exact ⟨_, by
        simpa using DerivesStmt.ifElse condition_derives consequence_derives closed derives⟩
  | whileLoop condition_derives _ ih =>
      obtain ⟨tree, derives⟩ := ih opened (alternative.imp fun _ derives => derives.anywhere lax _)
      exact ⟨_, by simpa using DerivesStmt.whileLoop condition_derives derives⟩
  | forLoop initializer_derives condition_derives increment_derives _ ih =>
      obtain ⟨tree, derives⟩ := ih opened (alternative.imp fun _ derives => derives.anywhere lax _)
      exact ⟨_, by
        simpa using
          DerivesStmt.forLoop initializer_derives condition_derives increment_derives derives⟩

/-- An `else` may follow any statement after the condition of an `if`. -/
theorem derivableStmt_ifElse (lax : Lax tolerated) (keyword : Token.OfKind .ifWord)
    (leftParen : Token.OfKind .leftParen) (rightParen : Token.OfKind .rightParen)
    (elseWord : Token.OfKind .elseWord) {tokens : List Token}
    (condition : DerivableExpr tolerated .assignment tokens)
    (consequence : DerivableStmt tolerated .statement surroundings consequenceTokens)
    (alternative : DerivableStmt tolerated .statement surroundings alternativeTokens) :
    DerivableStmt tolerated .statement surroundings
      (keyword.token :: leftParen.token :: (tokens ++ rightParen.token ::
        (consequenceTokens ++ elseWord.token :: alternativeTokens))) := by
  obtain ⟨condition, condition_derives⟩ := condition
  obtain ⟨consequence, consequence_derives⟩ := consequence
  cases opened : consequence.endsOpen with
  | true =>
      obtain ⟨tree, derives⟩ := consequence_derives.with_else lax elseWord opened alternative
      exact ⟨_, .ifThen condition_derives derives⟩
  | false =>
      obtain ⟨alternative, alternative_derives⟩ := alternative
      exact ⟨_, .ifElse condition_derives consequence_derives opened alternative_derives⟩

end Else

end Scriptlet.Grammar
