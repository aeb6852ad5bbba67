import Scriptlet.Proofs.Grammar.Provenance
import Scriptlet.Proofs.Grammar.Statement

/-!
# Where the parts of a statement come from

The tokens that a statement keeps, in its expressions and in the bodies of functions that it
declares too, are tokens that it was derived from.
-/

namespace Scriptlet

open Grammar

variable {onToken : Token → Prop}

/-- Whether the tokens that an expression keeps have a given property. -/
abbrev Expr.TokensHold (onToken : Token → Prop) (tree : Expr) : Prop :=
  tree.All onToken fun _ => True

/-- Whether the tokens of a declaration have a property. -/
def VariableDeclaration.TokensHold (onToken : Token → Prop)
    (declaration : VariableDeclaration) : Prop :=
  onToken declaration.name.token ∧ ∀ tree ∈ declaration.initializer, tree.TokensHold onToken

/-- Whether the tokens of an initializer have a property. -/
def ForInitializer.TokensHold (onToken : Token → Prop) : ForInitializer → Prop
  | .absent => True
  | .declaration declared => declared.TokensHold onToken
  | .expression tree => tree.TokensHold onToken

/-- Statements all of whose tokens have a given property. -/
inductive Stmt.TokensHold (onToken : Token → Prop) : Stmt → Prop where
  | expression {tree : Expr} (tree_holds : tree.TokensHold onToken) :
      TokensHold onToken (.expression tree)
  | print {keyword : Token.OfKind .printWord} {tree : Expr} (keyword_holds : onToken keyword.token)
      (tree_holds : tree.TokensHold onToken) : TokensHold onToken (.print keyword tree)
  | sleep {keyword : Token.OfKind .sleepWord} {tree : Expr} (keyword_holds : onToken keyword.token)
      (tree_holds : tree.TokensHold onToken) : TokensHold onToken (.sleep keyword tree)
  | declareVariable {declaration : VariableDeclaration}
      (declaration_holds : declaration.TokensHold onToken) :
      TokensHold onToken (.declareVariable declaration)
  | declareFunction {name : Name} {parameters : List Name} {body : List Stmt}
      (name_holds : onToken name.token)
      (parameters_hold : ∀ parameter ∈ parameters, onToken parameter.token)
      (body_holds : ∀ statement ∈ body, TokensHold onToken statement) :
      TokensHold onToken (.declareFunction name parameters body)
  | block {statements : List Stmt}
      (statements_hold : ∀ statement ∈ statements, TokensHold onToken statement) :
      TokensHold onToken (.block statements)
  | ifThen {condition : Expr} {consequence : Stmt} (condition_holds : condition.TokensHold onToken)
      (consequence_holds : TokensHold onToken consequence) :
      TokensHold onToken (.ifThen condition consequence)
  | ifElse {condition : Expr} {consequence alternative : Stmt}
      (condition_holds : condition.TokensHold onToken)
      (consequence_holds : TokensHold onToken consequence)
      (alternative_holds : TokensHold onToken alternative) :
      TokensHold onToken (.ifElse condition consequence alternative)
  | whileLoop {condition : Expr} {body : Stmt} (condition_holds : condition.TokensHold onToken)
      (body_holds : TokensHold onToken body) : TokensHold onToken (.whileLoop condition body)
  | forLoop {initializer : ForInitializer} {condition increment : Option Expr} {body : Stmt}
      (initializer_holds : initializer.TokensHold onToken)
      (condition_holds : ∀ tree ∈ condition, tree.TokensHold onToken)
      (increment_holds : ∀ tree ∈ increment, tree.TokensHold onToken)
      (body_holds : TokensHold onToken body) :
      TokensHold onToken (.forLoop initializer condition increment body)
  | breakLoop : TokensHold onToken .breakLoop
  | continueLoop : TokensHold onToken .continueLoop
  | returnValue {value : Option Expr} (value_holds : ∀ tree ∈ value, tree.TokensHold onToken) :
      TokensHold onToken (.returnValue value)

namespace Grammar

variable {tolerated : Tolerance} {tokens : List Token}

theorem DerivesExpr.tokensHold {tree : Expr}
    (derives : DerivesExpr tolerated .assignment tokens tree)
    (tokens_hold : ∀ token ∈ tokens, onToken token) : tree.TokensHold onToken :=
  derives.all tokens_hold (fun _ _ _ => trivial) (by rintro left ⟨⟩)

theorem DerivesVariable.tokensHold {declaration : VariableDeclaration}
    (derives : DerivesVariable tolerated tokens declaration)
    (tokens_hold : ∀ token ∈ tokens, onToken token) : declaration.TokensHold onToken := by
  cases derives with
  | bare => exact ⟨tokens_hold _ List.mem_cons_self, by rintro tree ⟨⟩⟩
  | initialized value_derives =>
      simp only [List.forall_mem_cons, List.forall_mem_append] at tokens_hold
      refine ⟨tokens_hold.1, ?_⟩
      rintro tree ⟨⟩
      exact value_derives.tokensHold tokens_hold.2.2.1

theorem DerivesOptional.tokensHold {optional : Option Expr}
    (derives : DerivesOptional tolerated tokens optional)
    (tokens_hold : ∀ token ∈ tokens, onToken token) :
    ∀ tree ∈ optional, tree.TokensHold onToken := by
  cases derives with
  | absent => rintro tree ⟨⟩
  | present derives =>
      rintro tree ⟨⟩
      exact derives.tokensHold tokens_hold

theorem DerivesInitializer.tokensHold {initializer : ForInitializer}
    (derives : DerivesInitializer tolerated tokens initializer)
    (tokens_hold : ∀ token ∈ tokens, onToken token) : initializer.TokensHold onToken := by
  cases derives with
  | absent => trivial
  | declaration derives =>
      rw [List.forall_mem_cons] at tokens_hold
      exact derives.tokensHold tokens_hold.2
  | expression derives =>
      rw [List.forall_mem_append] at tokens_hold
      exact derives.tokensHold tokens_hold.1

/-- What each part of a sequence passes on from its tokens, the sequence passes on from all. -/
theorem holds_filterMap {parts : List Part} {holds : Stmt → Prop}
    (parts_hold : ∀ part ∈ parts, ∀ statement ∈ part.2,
      (∀ token ∈ part.1, onToken token) → holds statement)
    (tokens_hold : ∀ token ∈ parts.flatMap Prod.fst, onToken token) :
    ∀ statement ∈ parts.filterMap Prod.snd, holds statement := by
  intro statement statement_mem
  rcases List.mem_filterMap.mp statement_mem with ⟨part, part_mem, part_eq⟩
  apply parts_hold part part_mem statement part_eq
  intro token token_mem
  exact tokens_hold token (List.mem_flatMap_of_mem part_mem token_mem)

/-- What holds of the tokens holds of those that the derived statement keeps. -/
theorem DerivesStmt.tokensHold {form : Form} {surroundings : Surroundings} {tree : Stmt}
    (derives : DerivesStmt tolerated form surroundings tokens tree)
    (tokens_hold : ∀ token ∈ tokens, onToken token) : tree.TokensHold onToken := by
  induction derives with
  | declareVariable derives =>
      rw [List.forall_mem_cons] at tokens_hold
      exact .declareVariable (derives.tokensHold tokens_hold.2)
  | declareFunction separated _ _ _ body_ih =>
      simp only [List.forall_mem_cons, List.forall_mem_append] at tokens_hold
      rcases tokens_hold with ⟨-, name_holds, -, inner_hold, -, -, body_hold, -⟩
      refine .declareFunction name_holds ?_ (holds_filterMap body_ih body_hold)
      intro parameter parameter_mem
      have among := (separated.sublist _ (List.mem_map_of_mem parameter_mem)).subset
      exact inner_hold _ (among List.mem_cons_self)
  | undeclared _ ih => exact ih tokens_hold
  | expression derives =>
      rw [List.forall_mem_append] at tokens_hold
      exact .expression (derives.tokensHold tokens_hold.1)
  | print derives =>
      simp only [List.forall_mem_cons, List.forall_mem_append] at tokens_hold
      exact .print tokens_hold.1 (derives.tokensHold tokens_hold.2.1)
  | sleep derives =>
      simp only [List.forall_mem_cons, List.forall_mem_append] at tokens_hold
      exact .sleep tokens_hold.1 (derives.tokensHold tokens_hold.2.1)
  | ifThen condition_derives _ ih =>
      simp only [List.forall_mem_cons, List.forall_mem_append] at tokens_hold
      rcases tokens_hold with ⟨-, -, condition_holds, -, consequence_holds⟩
      exact .ifThen (condition_derives.tokensHold condition_holds) (ih consequence_holds)
  | ifElse condition_derives _ _ _ consequence_ih alternative_ih =>
      simp only [List.forall_mem_cons, List.forall_mem_append] at tokens_hold
      rcases tokens_hold with ⟨-, -, condition_holds, -, consequence_holds, -, alternative_holds⟩
      exact .ifElse (condition_derives.tokensHold condition_holds)
        (consequence_ih consequence_holds) (alternative_ih alternative_holds)
  | whileLoop condition_derives _ ih =>
      simp only [List.forall_mem_cons, List.forall_mem_append] at tokens_hold
      rcases tokens_hold with ⟨-, -, condition_holds, -, body_holds⟩
      exact .whileLoop (condition_derives.tokensHold condition_holds) (ih body_holds)
  | forLoop initializer_derives condition_derives increment_derives _ ih =>
      simp only [List.forall_mem_cons, List.forall_mem_append] at tokens_hold
      rcases tokens_hold with
        ⟨-, -, initializer_holds, condition_holds, -, increment_holds, -, body_holds⟩
      exact .forLoop (initializer_derives.tokensHold initializer_holds)
        (condition_derives.tokensHold condition_holds)
        (increment_derives.tokensHold increment_holds) (ih body_holds)
  | breakLoop => exact .breakLoop
  | continueLoop => exact .continueLoop
  | returnValue _ value_derives =>
      simp only [List.forall_mem_cons, List.forall_mem_append] at tokens_hold
      exact .returnValue (value_derives.tokensHold tokens_hold.2.1)
  | block _ _ ih =>
      simp only [List.forall_mem_cons, List.forall_mem_append] at tokens_hold
      exact .block (holds_filterMap ih tokens_hold.2.1)

theorem DerivesProgram.tokensHold {program : List Stmt}
    (derives : DerivesProgram tolerated tokens program)
    (tokens_hold : ∀ token ∈ tokens, onToken token) :
    ∀ statement ∈ program, statement.TokensHold onToken := by
  rcases derives with ⟨parts, derive, _, rfl, rfl⟩
  refine holds_filterMap ?_ tokens_hold
  intro part part_mem statement statement_mem
  exact (derive part part_mem statement statement_mem).tokensHold

end Grammar

end Scriptlet
