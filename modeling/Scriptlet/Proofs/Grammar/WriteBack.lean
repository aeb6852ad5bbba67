import Scriptlet.Proofs.Grammar.Statement

/-!
# Trees written out as tokens

A tree keeps the tokens of its names and operators; the rest is punctuation, keywords and literals,
for which there is one token each. Written out so, the tree of a derivation gives the tokens that it
was derived from, up to what the grammar does not look at: the texts of tokens other than names, the
values of tokens other than literals, and lines.
-/

namespace Scriptlet

open Grammar

/-- What the grammar sees of a token. -/
structure Terminal where
  kind : Token.Kind
  name : Option String
  literal : Option Literal

/-- The kind of token that denotes a value. -/
def Literal.kind : Literal → Token.Kind
  | .nil => .nilWord
  | .boolean value => if value then .trueWord else .falseWord
  | .number _ => .number
  | .string _ => .string

namespace Token

/-- Whether a kind alone says what a token is, which it does not for names and literals. -/
@[simp, reducible]
def Kind.isPlain : Kind → Bool
  | .identifier | .falseWord | .trueWord | .nilWord | .number | .string => false
  | _ => true

/-- What the grammar sees of a token. -/
def terminal (token : Token) : Terminal where
  kind := token.kind
  name := if token.kind = .identifier then some token.lexeme else none
  literal := if token.kind ∈ literalKinds then token.literal else none

/-- A token that is to denote a value carries one of its own kind. -/
def LiteralFits (token : Token) : Prop :=
  token.kind ∈ literalKinds → token.literal.map Literal.kind = some token.kind

instance (token : Token) : Decidable token.LiteralFits :=
  inferInstanceAs (Decidable (_ → _))

/-- The token of a kind that has only one spelling. -/
def plain (kind : Kind) : Token :=
  ⟨kind, kind.spelling?.getD "", none, 0⟩

/-- The token that denotes a value. -/
def ofLiteral (value : Literal) : Token :=
  ⟨value.kind, value.text, some value, 0⟩

end Token

/-- Token sequences with a comma between each two of them. -/
def Grammar.separate : List (List Token) → List Token
  | [] => []
  | [piece] => piece
  | piece :: next :: others => piece ++ Token.plain .comma :: separate (next :: others)

namespace Expr

mutual

/-- The tokens that an expression is written with. -/
def tokens : Expr → List Token
  | .literal value => [Token.ofLiteral value]
  | .reference name => [name.token]
  | .grouping inner => Token.plain .leftParen :: (inner.tokens ++ [Token.plain .rightParen])
  | .unary operator operand => operator.token :: operand.tokens
  | .binary left operator right => left.tokens ++ operator.token :: right.tokens
  | .logical left operator right => left.tokens ++ operator.token :: right.tokens
  | .assign name value => name.token :: Token.plain .equal :: value.tokens
  | .call callee paren arguments =>
      callee.tokens ++ Token.plain .leftParen ::
        (separate (argumentTokens arguments) ++ [paren.token])

/-- The tokens of each argument. -/
def argumentTokens : List Expr → List (List Token)
  | [] => []
  | argument :: others => argument.tokens :: argumentTokens others

end

theorem argumentTokens_eq (arguments : List Expr) :
    argumentTokens arguments = arguments.map tokens := by
  induction arguments with
  | nil => rfl
  | cons argument others ih => rw [argumentTokens, ih, List.map_cons]

end Expr

/-- The tokens of an expression that may be left out. -/
def Expr.optionalTokens (tree : Option Expr) : List Token :=
  (tree.map Expr.tokens).getD []

/-- The tokens of a variable declaration after its keyword. -/
def VariableDeclaration.tokens (declaration : VariableDeclaration) : List Token :=
  match declaration.initializer with
  | none => [declaration.name.token, Token.plain .semicolon]
  | some value =>
      declaration.name.token :: Token.plain .equal :: (value.tokens ++ [Token.plain .semicolon])

/-- The tokens of the first clause of a counting loop, with the semicolon after it. -/
def ForInitializer.tokens : ForInitializer → List Token
  | .absent => [Token.plain .semicolon]
  | .declaration declared => Token.plain .varWord :: declared.tokens
  | .expression value => value.tokens ++ [Token.plain .semicolon]

namespace Stmt

mutual

/-- The tokens that a statement is written with. -/
def tokens : Stmt → List Token
  | .expression value => value.tokens ++ [Token.plain .semicolon]
  | .print keyword value => keyword.token :: (value.tokens ++ [Token.plain .semicolon])
  | .sleep keyword duration => keyword.token :: (duration.tokens ++ [Token.plain .semicolon])
  | .declareVariable declaration => Token.plain .varWord :: declaration.tokens
  | .declareFunction name parameters body =>
      Token.plain .funWord :: name.token :: Token.plain .leftParen ::
        (separate (parameters.map fun parameter => [parameter.token]) ++
          Token.plain .rightParen :: Token.plain .leftBrace ::
            (programTokens body ++ [Token.plain .rightBrace]))
  | .block statements =>
      Token.plain .leftBrace :: (programTokens statements ++ [Token.plain .rightBrace])
  | .ifThen condition consequence =>
      Token.plain .ifWord :: Token.plain .leftParen ::
        (condition.tokens ++ Token.plain .rightParen :: consequence.tokens)
  | .ifElse condition consequence alternative =>
      Token.plain .ifWord :: Token.plain .leftParen ::
        (condition.tokens ++ Token.plain .rightParen ::
          (consequence.tokens ++ Token.plain .elseWord :: alternative.tokens))
  | .whileLoop condition body =>
      Token.plain .whileWord :: Token.plain .leftParen ::
        (condition.tokens ++ Token.plain .rightParen :: body.tokens)
  | .forLoop initializer condition increment body =>
      Token.plain .forWord :: Token.plain .leftParen ::
        (initializer.tokens ++ (Expr.optionalTokens condition ++ Token.plain .semicolon ::
          (Expr.optionalTokens increment ++ Token.plain .rightParen :: body.tokens)))
  | .breakLoop => [Token.plain .breakWord, Token.plain .semicolon]
  | .continueLoop => [Token.plain .continueWord, Token.plain .semicolon]
  | .returnValue value =>
      Token.plain .returnWord :: (Expr.optionalTokens value ++ [Token.plain .semicolon])

/-- The tokens of statements, one after the other. -/
def programTokens : List Stmt → List Token
  | [] => []
  | statement :: others => statement.tokens ++ programTokens others

end

end Stmt

namespace Grammar

variable {tolerated : Tolerance}

/-- Nothing but its kind is seen of a token that has only one spelling. -/
@[simp]
theorem terminal_known {kind : Token.Kind} (known : Token.OfKind kind)
    (plain : kind.isPlain = true) : known.token.terminal = (Token.plain kind).terminal := by
  have seen : kind ≠ .identifier ∧ kind ∉ literalKinds := by
    revert plain
    clear known
    cases kind <;> decide
  simp [Token.terminal, Token.plain, known.kind_eq, seen.1, seen.2]

theorem terminal_ofLiteral {token : Token} (kind_mem : token.kind ∈ literalKinds)
    (fits : token.LiteralFits) :
    (Token.ofLiteral (token.literal.getD .nil)).terminal = token.terminal := by
  rcases Option.map_eq_some_iff.mp (fits kind_mem) with ⟨value, literal_eq, kind_eq⟩
  have no_name : token.kind ≠ .identifier := by
    intro named
    rw [named] at kind_mem
    exact absurd kind_mem (by decide)
  simp [Token.terminal, Token.ofLiteral, literal_eq, kind_eq, no_name, kind_mem]

theorem terminals_separate {pieces others : List (List Token)} {tokens : List Token}
    (commas : Separated pieces tokens)
    (same : others.map (List.map Token.terminal) = pieces.map (List.map Token.terminal)) :
    (separate others).map Token.terminal = tokens.map Token.terminal := by
  induction commas generalizing others with
  | empty =>
      cases others with
      | nil => rfl
      | cons => cases same
  | single =>
      rcases others with _ | ⟨other, _ | _⟩
      · cases same
      · simpa [separate] using same
      · simp at same
  | @comma piece next pieces tokens comma _ ih =>
      rcases others with _ | ⟨other, _ | ⟨second, later⟩⟩
      · cases same
      · simp at same
      · rcases List.cons.inj same with ⟨piece_eq, others_eq⟩
        have later_eq := ih others_eq
        simp [separate, piece_eq, later_eq]

/-- The tokens of the expression that a category goes on with. -/
def Category.before : Category → List Token
  | .chain _ left => left.tokens
  | .calls callee => callee.tokens
  | _ => []

theorem Category.before_operand (level : Level) : level.operand.before = [] := by
  cases level <;> rfl

/-- Written out, the tree of an expression is what it was derived from, as far as the grammar
sees. -/
theorem DerivesExpr.terminals_eq (no_misassignment : ¬ tolerated .invalidAssignmentTarget)
    {category : Category} {tokens : List Token} {tree : Expr}
    (derives : DerivesExpr tolerated category tokens tree)
    (fits : ∀ token ∈ tokens, token.LiteralFits) :
    tree.tokens.map Token.terminal = (category.before ++ tokens).map Token.terminal := by
  induction derives with
  | @assign name equals tokens value _ ih =>
      simp only [List.forall_mem_cons] at fits
      have value_eq := ih fits.2.2
      simpa [Category.before, Expr.tokens] using value_eq
  | misassign allowed => exact absurd allowed no_misassignment
  | unassigned _ ih => exact ih fits
  | @level level tokens others first tree _ _ first_ih others_ih =>
      rw [List.forall_mem_append] at fits
      have first_eq := first_ih fits.1
      have others_eq := others_ih fits.2
      rw [Category.before_operand, List.nil_append] at first_eq
      rw [others_eq]
      simpa [Category.before] using first_eq
  | chainEnd | callsEnd => simp [Category.before]
  | @chainLogical level operator tokens others left right tree _ _ _ right_ih others_ih
  | @chainBinary level operator tokens others left right tree _ _ _ right_ih others_ih =>
      rw [List.forall_mem_cons, List.forall_mem_append] at fits
      have right_eq := right_ih fits.2.1
      have others_eq := others_ih fits.2.2
      rw [Category.before_operand, List.nil_append] at right_eq
      rw [others_eq]
      simpa [Category.before, Expr.tokens] using right_eq
  | unary _ ih =>
      rw [List.forall_mem_cons] at fits
      have operand_eq := ih fits.2
      simpa [Category.before, Expr.tokens] using operand_eq
  | operand _ ih => exact ih fits
  | call _ _ callee_ih others_ih =>
      rw [List.forall_mem_append] at fits
      have callee_eq := callee_ih fits.1
      have others_eq := others_ih fits.2
      rw [others_eq]
      simpa [Category.before] using callee_eq
  | @calls leftParen rightParen arguments inner others callee tree separated _ _ _ arguments_ih
      others_ih =>
      simp only [List.forall_mem_cons, List.forall_mem_append] at fits
      have arguments_eq : (Expr.argumentTokens (arguments.map Prod.snd)).map
          (List.map Token.terminal) = (arguments.map Prod.fst).map (List.map Token.terminal) := by
        rw [Expr.argumentTokens_eq, List.map_map, List.map_map, List.map_map]
        apply List.map_congr_left
        intro argument argument_mem
        apply arguments_ih argument argument_mem
        intro token token_mem
        exact fits.2.1 token
          ((separated.sublist argument.1 (List.mem_map_of_mem argument_mem)).subset token_mem)
      have inner_eq := terminals_separate separated arguments_eq
      rw [others_ih fits.2.2.2]
      simp [Category.before, Expr.tokens, inner_eq]
  | literal kind_mem =>
      have literal_eq := terminal_ofLiteral kind_mem (fits _ List.mem_cons_self)
      simpa [Category.before, Expr.tokens] using literal_eq
  | reference => rfl
  | @grouping leftParen rightParen tokens inner _ ih =>
      simp only [List.forall_mem_cons, List.forall_mem_append] at fits
      have inner_eq := ih fits.2.1
      simpa [Category.before, Expr.tokens] using inner_eq

section Statements

variable {tokens : List Token} (no_misassignment : ¬ tolerated .invalidAssignmentTarget)

include no_misassignment

theorem DerivesExpr.terminals_tokens {tree : Expr}
    (derives : DerivesExpr tolerated .assignment tokens tree)
    (fits : ∀ token ∈ tokens, token.LiteralFits) :
    tree.tokens.map Token.terminal = tokens.map Token.terminal :=
  derives.terminals_eq no_misassignment fits

theorem DerivesOptional.terminals_eq {tree : Option Expr}
    (derives : DerivesOptional tolerated tokens tree)
    (fits : ∀ token ∈ tokens, token.LiteralFits) :
    (Expr.optionalTokens tree).map Token.terminal = tokens.map Token.terminal := by
  cases derives with
  | absent => rfl
  | present derives => exact derives.terminals_eq no_misassignment fits

theorem DerivesVariable.terminals_eq {declaration : VariableDeclaration}
    (derives : DerivesVariable tolerated tokens declaration)
    (fits : ∀ token ∈ tokens, token.LiteralFits) :
    declaration.tokens.map Token.terminal = tokens.map Token.terminal := by
  cases derives with
  | @bare name semicolon =>
      simp [VariableDeclaration.tokens]
  | @initialized name equals semicolon tokens value derives =>
      simp only [List.forall_mem_cons, List.forall_mem_append] at fits
      have value_eq := derives.terminals_tokens no_misassignment fits.2.2.1
      simp [VariableDeclaration.tokens, value_eq]

theorem DerivesInitializer.terminals_eq {initializer : ForInitializer}
    (derives : DerivesInitializer tolerated tokens initializer)
    (fits : ∀ token ∈ tokens, token.LiteralFits) :
    initializer.tokens.map Token.terminal = tokens.map Token.terminal := by
  cases derives with
  | @absent semicolon =>
      simp [ForInitializer.tokens]
  | @declaration keyword tokens declaration derives =>
      rw [List.forall_mem_cons] at fits
      have declaration_eq := derives.terminals_eq no_misassignment fits.2
      simp [ForInitializer.tokens, declaration_eq]
  | @expression semicolon tokens tree derives =>
      rw [List.forall_mem_append] at fits
      have value_eq := derives.terminals_tokens no_misassignment fits.1
      simp [ForInitializer.tokens, value_eq]

omit no_misassignment in
theorem terminals_parameters {parameters : List Name} {inner : List Token}
    (commas : Separated (parameters.map fun parameter => [parameter.token]) inner) :
    (separate (parameters.map fun parameter => [parameter.token])).map Token.terminal =
      inner.map Token.terminal :=
  terminals_separate commas rfl

omit no_misassignment in
theorem terminals_programTokens {parts : List Part} (whole : ¬ Skips tolerated)
    (skips : ∀ part ∈ parts, part.2 = none → Skips tolerated)
    (each : ∀ part ∈ parts, ∀ statement ∈ part.2,
      statement.tokens.map Token.terminal = part.1.map Token.terminal) :
    (Stmt.programTokens (parts.filterMap Prod.snd)).map Token.terminal =
      (parts.flatMap Prod.fst).map Token.terminal := by
  induction parts with
  | nil => rfl
  | cons part parts ih =>
      rw [List.forall_mem_cons] at skips each
      rcases part with ⟨read, result⟩
      cases result with
      | none => exact absurd (skips.1 rfl) whole
      | some statement =>
          have statement_eq := each.1 statement rfl
          have others_eq := ih skips.2 each.2
          simp [Stmt.programTokens, statement_eq, others_eq]

/-- Written out, the tree of a statement is what it was derived from, as far as the grammar sees. -/
theorem DerivesStmt.terminals_eq (whole : ¬ Skips tolerated) {form : Form}
    {surroundings : Surroundings} {tree : Stmt}
    (derives : DerivesStmt tolerated form surroundings tokens tree)
    (fits : ∀ token ∈ tokens, token.LiteralFits) :
    tree.tokens.map Token.terminal = tokens.map Token.terminal := by
  induction derives with
  | @declareVariable _ keyword _ declaration derives =>
      rw [List.forall_mem_cons] at fits
      have declaration_eq := derives.terminals_eq no_misassignment fits.2
      simp [Stmt.tokens, declaration_eq]
  | @declareFunction _ keyword leftParen rightParen leftBrace rightBrace name parameters inner
      parts commas _ _ skips ih =>
      simp only [List.forall_mem_cons, List.forall_mem_append] at fits
      have parameters_eq := terminals_parameters commas
      have body_eq := terminals_programTokens whole skips
        fun part part_mem statement statement_mem => ih part part_mem statement statement_mem
          fun token token_mem =>
            fits.2.2.2.2.2.2.1 token (List.mem_flatMap.mpr ⟨part, part_mem, token_mem⟩)
      simp [Stmt.tokens, parameters_eq, body_eq]
  | undeclared _ ih => exact ih fits
  | @expression _ semicolon tokens tree derives =>
      rw [List.forall_mem_append] at fits
      have value_eq := derives.terminals_tokens no_misassignment fits.1
      simp [Stmt.tokens, value_eq]
  | @print _ keyword semicolon tokens tree derives
  | @sleep _ keyword semicolon tokens tree derives =>
      simp only [List.forall_mem_cons, List.forall_mem_append] at fits
      have value_eq := derives.terminals_tokens no_misassignment fits.2.1
      simp [Stmt.tokens, value_eq]
  | @ifThen _ keyword leftParen rightParen tokens consequenceTokens condition consequence
      condition_derives _ ih =>
      simp only [List.forall_mem_cons, List.forall_mem_append] at fits
      have condition_eq := condition_derives.terminals_tokens no_misassignment fits.2.2.1
      have consequence_eq := ih fits.2.2.2.2
      simp [Stmt.tokens, condition_eq, consequence_eq]
  | @ifElse _ keyword leftParen rightParen elseWord tokens consequenceTokens alternativeTokens
      condition consequence alternative condition_derives _ _ _ consequence_ih alternative_ih =>
      simp only [List.forall_mem_cons, List.forall_mem_append] at fits
      have condition_eq := condition_derives.terminals_tokens no_misassignment fits.2.2.1
      have consequence_eq := consequence_ih fits.2.2.2.2.1
      have alternative_eq := alternative_ih fits.2.2.2.2.2.2
      simp [Stmt.tokens, condition_eq, consequence_eq, alternative_eq]
  | @whileLoop _ keyword leftParen rightParen tokens bodyTokens condition body
      condition_derives _ ih =>
      simp only [List.forall_mem_cons, List.forall_mem_append] at fits
      have condition_eq := condition_derives.terminals_tokens no_misassignment fits.2.2.1
      have body_eq := ih fits.2.2.2.2
      simp [Stmt.tokens, condition_eq, body_eq]
  | @forLoop _ keyword leftParen rightParen semicolon initializerTokens conditionTokens
      incrementTokens bodyTokens initializer condition increment body initializer_derives
      condition_derives increment_derives _ ih =>
      simp only [List.forall_mem_cons, List.forall_mem_append] at fits
      have initializer_eq := initializer_derives.terminals_eq no_misassignment fits.2.2.1
      have condition_eq := condition_derives.terminals_eq no_misassignment fits.2.2.2.1
      have increment_eq := increment_derives.terminals_eq no_misassignment fits.2.2.2.2.2.1
      have body_eq := ih fits.2.2.2.2.2.2.2
      simp [Stmt.tokens, initializer_eq, condition_eq, increment_eq, body_eq]
  | @breakLoop _ keyword semicolon | @continueLoop _ keyword semicolon =>
      simp [Stmt.tokens]
  | @returnValue _ keyword semicolon tokens value _ derives =>
      simp only [List.forall_mem_cons, List.forall_mem_append] at fits
      have value_eq := derives.terminals_eq no_misassignment fits.2.1
      simp [Stmt.tokens, value_eq]
  | @block _ leftBrace rightBrace parts _ skips ih =>
      simp only [List.forall_mem_cons, List.forall_mem_append] at fits
      have statements_eq := terminals_programTokens whole skips
        fun part part_mem statement statement_mem => ih part part_mem statement statement_mem
          fun token token_mem =>
            fits.2.1 token (List.mem_flatMap.mpr ⟨part, part_mem, token_mem⟩)
      simp [Stmt.tokens, statements_eq]

theorem DerivesProgram.terminals_eq (whole : ¬ Skips tolerated) {program : List Stmt}
    (derives : DerivesProgram tolerated tokens program)
    (fits : ∀ token ∈ tokens, token.LiteralFits) :
    (Stmt.programTokens program).map Token.terminal = tokens.map Token.terminal := by
  rcases derives with ⟨parts, derive, skips, rfl, rfl⟩
  apply terminals_programTokens whole skips
  intro part part_mem statement statement_mem
  apply (derive part part_mem statement statement_mem).terminals_eq no_misassignment whole
  intro token token_mem
  exact fits token (List.mem_flatMap.mpr ⟨part, part_mem, token_mem⟩)

end Statements

end Grammar

end Scriptlet
