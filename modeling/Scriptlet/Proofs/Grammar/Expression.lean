import Scriptlet.Parser.Expression

/-!
# The grammar of expressions

`DerivesExpr` says which token sequences are expressions and which trees they stand for. It is
stated rule by rule and without reading order, so that a parser can be compared with it.

The relation is relative to a tolerance: the faults that a derivation may contain. With no fault
tolerated it is the grammar itself; with some, it also describes what is made of faulty token
sequences.
-/

namespace Scriptlet.Grammar

/-- The faults that a derivation may contain. -/
abbrev Tolerance := SyntaxError.Cause → Prop

/-- No fault is tolerated. -/
def strict : Tolerance := fun _ => False

/-- Operators between operands, which group to the left. From the loosest level to the tightest. -/
inductive Level where
  | disjunction
  | conjunction
  | equality
  | comparison
  | sum
  | product

/-- The categories of expressions. A chain is what follows the left operand of a level: operators
with their right operands. The calls are what follows a callee: lists of arguments. -/
inductive Category where
  | assignment
  | level (level : Level)
  | chain (level : Level) (left : Expr)
  | unary
  | call
  | calls (callee : Expr)
  | primary

namespace Level

/-- The operators of a level that evaluate both operands. -/
def binaryOperators : Level → List BinaryOperator
  | .disjunction | .conjunction => []
  | .equality => [.notEqual, .equal]
  | .comparison => [.greater, .greaterEqual, .less, .lessEqual]
  | .sum => [.subtract, .add]
  | .product => [.divide, .multiply]

/-- The operators of a level that need not evaluate their right operand. -/
def logicalOperators : Level → List LogicalOperator
  | .disjunction => [.either]
  | .conjunction => [.both]
  | .equality | .comparison | .sum | .product => []

/-- The category of the operands of a level. -/
def operand : Level → Category
  | .disjunction => .level .conjunction
  | .conjunction => .level .equality
  | .equality => .level .comparison
  | .comparison => .level .sum
  | .sum => .level .product
  | .product => .unary

end Level

/-- Token sequences with one comma between each two of them. -/
inductive Separated : List (List Token) → List Token → Prop where
  | empty : Separated [] []
  | single {piece : List Token} : Separated [piece] piece
  | comma {piece next : List Token} {pieces : List (List Token)} {tokens : List Token}
      {comma : Token.OfKind .comma} (others : Separated (next :: pieces) tokens) :
      Separated (piece :: next :: pieces) (piece ++ comma.token :: tokens)

theorem Separated.sublist {pieces : List (List Token)} {tokens : List Token}
    (commas : Separated pieces tokens) : ∀ piece ∈ pieces, List.Sublist piece tokens := by
  induction commas with
  | empty => simp
  | single => simp
  | comma _ ih =>
      intro piece piece_mem
      rcases List.mem_cons.mp piece_mem with rfl | piece_mem
      · exact List.sublist_append_left _ _
      · exact ((ih piece piece_mem).cons _).trans (List.sublist_append_right _ _)

/-- The kinds of tokens that denote values. -/
def literalKinds : List Token.Kind := [.falseWord, .trueWord, .nilWord, .number, .string]

/-- Token sequences with the expressions that they stand for. -/
inductive DerivesExpr (tolerated : Tolerance) : Category → List Token → Expr → Prop where
  | assign {name : Name} {equals : Token.OfKind .equal} {tokens : List Token} {value : Expr}
      (value_derives : DerivesExpr tolerated .assignment tokens value) :
      DerivesExpr tolerated .assignment (name.token :: equals.token :: tokens)
        (.assign name value)
  | misassign {equals : Token.OfKind .equal} {left right : List Token} {target value : Expr}
      (allowed : tolerated .invalidAssignmentTarget)
      (target_derives : DerivesExpr tolerated (.level .disjunction) left target)
      (not_reference : ∀ name, target ≠ .reference name)
      (value_derives : DerivesExpr tolerated .assignment right value) :
      DerivesExpr tolerated .assignment (left ++ equals.token :: right) target
  | unassigned {tokens : List Token} {tree : Expr}
      (derives : DerivesExpr tolerated (.level .disjunction) tokens tree) :
      DerivesExpr tolerated .assignment tokens tree
  | level {level : Level} {tokens others : List Token} {first tree : Expr}
      (first_derives : DerivesExpr tolerated level.operand tokens first)
      (others_derive : DerivesExpr tolerated (.chain level first) others tree) :
      DerivesExpr tolerated (.level level) (tokens ++ others) tree
  | chainEnd {level : Level} {left : Expr} : DerivesExpr tolerated (.chain level left) [] left
  | chainLogical {level : Level} {operator : Operator LogicalOperator.kind}
      {tokens others : List Token} {left right tree : Expr}
      (operator_mem : operator.meaning ∈ level.logicalOperators)
      (right_derives : DerivesExpr tolerated level.operand tokens right)
      (others_derive :
        DerivesExpr tolerated (.chain level (.logical left operator right)) others tree) :
      DerivesExpr tolerated (.chain level left) (operator.token :: (tokens ++ others)) tree
  | chainBinary {level : Level} {operator : Operator BinaryOperator.kind}
      {tokens others : List Token} {left right tree : Expr}
      (operator_mem : operator.meaning ∈ level.binaryOperators)
      (right_derives : DerivesExpr tolerated level.operand tokens right)
      (others_derive :
        DerivesExpr tolerated (.chain level (.binary left operator right)) others tree) :
      DerivesExpr tolerated (.chain level left) (operator.token :: (tokens ++ others)) tree
  | unary {operator : Operator UnaryOperator.kind} {tokens : List Token} {operand : Expr}
      (operand_derives : DerivesExpr tolerated .unary tokens operand) :
      DerivesExpr tolerated .unary (operator.token :: tokens) (.unary operator operand)
  | operand {tokens : List Token} {tree : Expr}
      (derives : DerivesExpr tolerated .call tokens tree) :
      DerivesExpr tolerated .unary tokens tree
  | call {tokens others : List Token} {callee tree : Expr}
      (callee_derives : DerivesExpr tolerated .primary tokens callee)
      (others_derive : DerivesExpr tolerated (.calls callee) others tree) :
      DerivesExpr tolerated .call (tokens ++ others) tree
  | callsEnd {callee : Expr} : DerivesExpr tolerated (.calls callee) [] callee
  | calls {leftParen : Token.OfKind .leftParen} {rightParen : Token.OfKind .rightParen}
      {arguments : List (List Token × Expr)} {inner others : List Token} {callee tree : Expr}
      (separated : Separated (arguments.map Prod.fst) inner)
      (arguments_derive : ∀ argument ∈ arguments,
        DerivesExpr tolerated .assignment argument.1 argument.2)
      (few : arguments.length ≤ Parser.maxArity ∨ tolerated .tooManyArguments)
      (others_derive : DerivesExpr tolerated
        (.calls (.call callee rightParen (arguments.map Prod.snd))) others tree) :
      DerivesExpr tolerated (.calls callee)
        (leftParen.token :: (inner ++ rightParen.token :: others)) tree
  | literal {token : Token} (kind_mem : token.kind ∈ literalKinds) :
      DerivesExpr tolerated .primary [token] (.literal (token.literal.getD .nil))
  | reference {name : Name} : DerivesExpr tolerated .primary [name.token] (.reference name)
  | grouping {leftParen : Token.OfKind .leftParen} {rightParen : Token.OfKind .rightParen}
      {tokens : List Token} {inner : Expr}
      (inner_derives : DerivesExpr tolerated .assignment tokens inner) :
      DerivesExpr tolerated .primary (leftParen.token :: (tokens ++ [rightParen.token]))
        (.grouping inner)

/-- The kinds of tokens that an expression can start with. -/
def startKinds : List Token.Kind := literalKinds ++ [.identifier, .leftParen, .bang, .minus]

/-- The expression that a category goes on with, if it is no category of whole expressions. -/
def Category.left? : Category → Option Expr
  | .chain _ left => some left
  | .calls callee => some callee
  | _ => none

theorem left?_operand (level : Level) : level.operand.left? = none := by
  cases level <;> rfl

namespace DerivesExpr

variable {tolerated : Tolerance} {category : Category} {tokens : List Token} {tree : Expr}

theorem exists_start (derives : DerivesExpr tolerated category tokens tree)
    (whole : category.left? = none) :
    ∃ token others, tokens = token :: others ∧ token.kind ∈ startKinds := by
  induction derives with
  | @assign name => exact ⟨_, _, rfl, by simp [startKinds, name.kind_eq]⟩
  | misassign _ _ _ _ ih =>
      rcases ih rfl with ⟨token, others, rfl, starts⟩
      exact ⟨token, _, rfl, starts⟩
  | unassigned _ ih => exact ih rfl
  | @level level _ _ _ _ _ _ ih =>
      rcases ih (left?_operand level) with ⟨token, others, rfl, starts⟩
      exact ⟨token, _, rfl, starts⟩
  | chainEnd | chainLogical | chainBinary | callsEnd | calls => cases whole
  | @unary operator =>
      refine ⟨_, _, rfl, ?_⟩
      rw [operator.kind_eq]
      cases operator.meaning <;> simp [startKinds, UnaryOperator.kind]
  | operand _ ih => exact ih rfl
  | call _ _ ih =>
      rcases ih rfl with ⟨token, others, rfl, starts⟩
      exact ⟨token, _, rfl, starts⟩
  | literal kind_mem => exact ⟨_, _, rfl, List.mem_append_left _ kind_mem⟩
  | @reference name => exact ⟨_, _, rfl, by simp [startKinds, name.kind_eq]⟩
  | @grouping leftParen => exact ⟨_, _, rfl, by simp [startKinds, leftParen.kind_eq]⟩

/-- What can be called does not start with an operator. -/
theorem exists_call_start (derives : DerivesExpr tolerated .call tokens tree) :
    ∃ token others, tokens = token :: others ∧
      ∀ operator, token.kind ≠ UnaryOperator.kind operator := by
  cases derives with
  | call callee_derives =>
      cases callee_derives with
      | @literal token kind_mem =>
          refine ⟨token, _, rfl, ?_⟩
          rintro operator kind_eq
          rw [kind_eq] at kind_mem
          cases operator <;> exact absurd kind_mem (by decide)
      | @reference name =>
          refine ⟨name.token, _, rfl, ?_⟩
          rw [name.kind_eq]
          intro operator
          cases operator <;> decide
      | @grouping leftParen =>
          refine ⟨leftParen.token, _, rfl, ?_⟩
          rw [leftParen.kind_eq]
          intro operator
          cases operator <;> decide

theorem tokens_ne_nil (derives : DerivesExpr tolerated category tokens tree)
    (whole : category.left? = none) : tokens ≠ [] := by
  rcases derives.exists_start whole with ⟨token, others, rfl, _⟩
  simp

/-- Only a single token stands for a name. What follows an expression stands for a name if it is
empty and the expression is one. -/
theorem tokens_of_reference {name : Name} (derives : DerivesExpr tolerated category tokens tree)
    (tree_eq : tree = .reference name) :
    (category.left? = none → tokens = [name.token]) ∧
      ∀ left ∈ category.left?, tokens = [] ∧ left = tree := by
  induction derives with
  | assign => cases tree_eq
  | misassign _ _ not_reference => exact absurd tree_eq (not_reference name)
  | unassigned _ ih => exact ih tree_eq
  | @level level _ _ _ _ _ _ firstIh othersIh =>
      rcases (othersIh tree_eq).2 _ rfl with ⟨rfl, rfl⟩
      have single := (firstIh tree_eq).1 (left?_operand level)
      simpa [Category.left?] using single
  | chainEnd | callsEnd => simp [Category.left?]
  | chainLogical _ _ _ _ ih | chainBinary _ _ _ _ ih | calls _ _ _ _ _ ih =>
      rcases (ih tree_eq).2 _ rfl with ⟨_, rfl⟩
      cases tree_eq
  | unary => cases tree_eq
  | operand _ ih => exact ih tree_eq
  | call _ _ calleeIh othersIh =>
      rcases (othersIh tree_eq).2 _ rfl with ⟨rfl, rfl⟩
      have single := (calleeIh tree_eq).1 rfl
      simpa [Category.left?] using single
  | literal => cases tree_eq
  | reference =>
      cases tree_eq
      simp [Category.left?]
  | grouping => cases tree_eq

end DerivesExpr

end Scriptlet.Grammar
