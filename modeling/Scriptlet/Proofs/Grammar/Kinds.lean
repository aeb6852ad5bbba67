import Scriptlet.Proofs.Grammar.Statement

/-!
# Kinds of tokens in derivations

No end of input occurs in what is derived, and no semicolon in an expression. So a semicolon ends
the statement that it is in, unless the statement is a counting loop, has braces, or goes on with
an `else`.
-/

namespace Scriptlet.Grammar

variable {tolerated : Tolerance}

/-- The kinds of tokens that expressions are made of. -/
def expressionKinds : List Token.Kind :=
  literalKinds ++ [.identifier, .leftParen, .rightParen, .comma, .equal, .minus, .bang, .plus,
    .star, .slash, .greater, .greaterEqual, .less, .lessEqual, .equalEqual, .bangEqual, .andWord,
    .orWord]

theorem Separated.mem {pieces : List (List Token)} {inner : List Token}
    (separated : Separated pieces inner) :
    ∀ token ∈ inner, token.kind = .comma ∨ ∃ piece ∈ pieces, token ∈ piece := by
  induction separated with
  | empty => simp
  | @single piece => exact fun token token_mem => .inr ⟨piece, by simp, token_mem⟩
  | @comma piece next pieces tokens comma others ih =>
      intro token token_mem
      rcases List.mem_append.mp token_mem with token_mem | token_mem
      · exact .inr ⟨piece, by simp, token_mem⟩
      rcases List.mem_cons.mp token_mem with rfl | token_mem
      · exact .inl comma.kind_eq
      · refine (ih token token_mem).imp_right ?_
        rintro ⟨other, other_mem, in_other⟩
        exact ⟨other, List.mem_cons_of_mem _ other_mem, in_other⟩

theorem DerivesExpr.kind_mem {category : Category} {tokens : List Token} {tree : Expr}
    (derives : DerivesExpr tolerated category tokens tree) :
    ∀ token ∈ tokens, token.kind ∈ expressionKinds := by
  have known {kind : Token.Kind} (known : Token.OfKind kind) (kind_mem : kind ∈ expressionKinds) :
      known.token.kind ∈ expressionKinds := by rwa [known.kind_eq]
  induction derives with
  | @assign name equals _ _ _ ih =>
      exact List.forall_mem_cons.mpr ⟨known name (by decide),
        List.forall_mem_cons.mpr ⟨known equals (by decide), ih⟩⟩
  | @misassign equals _ _ _ _ _ _ _ _ left_ih right_ih =>
      exact List.forall_mem_append.mpr ⟨left_ih,
        List.forall_mem_cons.mpr ⟨known equals (by decide), right_ih⟩⟩
  | unassigned _ ih | operand _ ih => exact ih
  | level _ _ first_ih others_ih => exact List.forall_mem_append.mpr ⟨first_ih, others_ih⟩
  | call _ _ callee_ih others_ih => exact List.forall_mem_append.mpr ⟨callee_ih, others_ih⟩
  | chainEnd | callsEnd => simp
  | @chainLogical _ operator _ _ _ _ _ _ _ _ right_ih others_ih =>
      refine List.forall_mem_cons.mpr ⟨?_, List.forall_mem_append.mpr ⟨right_ih, others_ih⟩⟩
      rw [operator.kind_eq]
      cases operator.meaning <;> decide
  | @chainBinary _ operator _ _ _ _ _ _ _ _ right_ih others_ih =>
      refine List.forall_mem_cons.mpr ⟨?_, List.forall_mem_append.mpr ⟨right_ih, others_ih⟩⟩
      rw [operator.kind_eq]
      cases operator.meaning <;> decide
  | @unary operator _ _ _ ih =>
      refine List.forall_mem_cons.mpr ⟨?_, ih⟩
      rw [operator.kind_eq]
      cases operator.meaning <;> decide
  | @calls leftParen rightParen _ _ _ _ _ separated _ _ _ arguments_ih others_ih =>
      refine List.forall_mem_cons.mpr ⟨known leftParen (by decide), List.forall_mem_append.mpr
        ⟨?_, List.forall_mem_cons.mpr ⟨known rightParen (by decide), others_ih⟩⟩⟩
      intro token token_mem
      rcases separated.mem token token_mem with comma | ⟨piece, piece_mem, in_piece⟩
      · rw [comma]
        decide
      · obtain ⟨argument, argument_mem, rfl⟩ := List.mem_map.mp piece_mem
        exact arguments_ih argument argument_mem token in_piece
  | literal kind_mem => exact List.forall_mem_singleton.mpr (List.mem_append_left _ kind_mem)
  | @reference name => simpa using known name (by decide)
  | @grouping leftParen rightParen _ _ _ ih =>
      exact List.forall_mem_cons.mpr ⟨known leftParen (by decide),
        List.forall_mem_append.mpr ⟨ih, by simpa using known rightParen (by decide)⟩⟩

theorem DerivesExpr.kind_ne {category : Category} {tokens : List Token} {tree : Expr}
    (derives : DerivesExpr tolerated category tokens tree) {kind : Token.Kind}
    (other : kind ∉ expressionKinds) : ∀ token ∈ tokens, token.kind ≠ kind := by
  rintro token token_mem rfl
  exact other (derives.kind_mem token token_mem)

/-- The kinds of tokens that statements are made of. -/
def statementKinds : List Token.Kind :=
  [.semicolon, .leftBrace, .rightBrace, .varWord, .funWord, .printWord, .sleepWord, .ifWord,
    .elseWord, .whileWord, .forWord, .breakWord, .continueWord, .returnWord] ++ expressionKinds

theorem mem_statementKinds {kind : Token.Kind} (known : Token.OfKind kind)
    (kind_mem : kind ∈ statementKinds) : known.token.kind ∈ statementKinds := by
  rwa [known.kind_eq]

theorem DerivesExpr.mem_statementKinds {category : Category} {tokens : List Token} {tree : Expr}
    (derives : DerivesExpr tolerated category tokens tree) :
    ∀ token ∈ tokens, token.kind ∈ statementKinds :=
  fun token token_mem => List.mem_append_right _ (derives.kind_mem token token_mem)

theorem DerivesVariable.kind_mem {tokens : List Token} {declaration : VariableDeclaration}
    (derives : DerivesVariable tolerated tokens declaration) :
    ∀ token ∈ tokens, token.kind ∈ statementKinds := by
  cases derives with
  | @bare name semicolon =>
      simp [mem_statementKinds name (by decide), mem_statementKinds semicolon (by decide)]
  | @initialized name equals semicolon _ _ derives =>
      have inner := derives.mem_statementKinds
      simp only [List.forall_mem_cons, List.forall_mem_append]
      exact ⟨mem_statementKinds name (by decide), mem_statementKinds equals (by decide), inner,
        mem_statementKinds semicolon (by decide), by simp⟩

theorem DerivesOptional.kind_mem {tokens : List Token} {value : Option Expr}
    (derives : DerivesOptional tolerated tokens value) :
    ∀ token ∈ tokens, token.kind ∈ statementKinds := by
  cases derives with
  | absent => simp
  | present derives => exact derives.mem_statementKinds

theorem DerivesInitializer.kind_mem {tokens : List Token} {initializer : ForInitializer}
    (derives : DerivesInitializer tolerated tokens initializer) :
    ∀ token ∈ tokens, token.kind ∈ statementKinds := by
  cases derives with
  | @absent semicolon => simp [mem_statementKinds semicolon (by decide)]
  | @declaration keyword _ _ derives =>
      exact List.forall_mem_cons.mpr ⟨mem_statementKinds keyword (by decide), derives.kind_mem⟩
  | @expression semicolon _ _ derives =>
      exact List.forall_mem_append.mpr ⟨derives.mem_statementKinds,
        by simp [mem_statementKinds semicolon (by decide)]⟩

theorem DerivesStmt.kind_mem (whole : ¬Skips tolerated) {form : Form} {surroundings : Surroundings}
    {tokens : List Token} {tree : Stmt}
    (derives : DerivesStmt tolerated form surroundings tokens tree) :
    ∀ token ∈ tokens, token.kind ∈ statementKinds := by
  have parts_mem {parts : List Part}
      (each : ∀ part ∈ parts, ∀ statement ∈ part.2, ∀ token ∈ part.1, token.kind ∈ statementKinds)
      (skips : ∀ part ∈ parts, part.2 = none → Skips tolerated) :
      ∀ token ∈ parts.flatMap Prod.fst, token.kind ∈ statementKinds := by
    intro token token_mem
    obtain ⟨part, part_mem, in_part⟩ := List.mem_flatMap.mp token_mem
    cases statement_eq : part.2 with
    | none => exact absurd (skips part part_mem statement_eq) whole
    | some statement => exact each part part_mem statement statement_eq token in_part
  induction derives with
  | @declareVariable _ keyword _ _ derives =>
      exact List.forall_mem_cons.mpr ⟨mem_statementKinds keyword (by decide), derives.kind_mem⟩
  | @declareFunction _ keyword leftParen rightParen leftBrace rightBrace name _ list _ separated _ _
      skips ih =>
      have body := parts_mem ih skips
      have inner : ∀ token ∈ list, token.kind ∈ statementKinds := by
        intro token token_mem
        rcases separated.mem token token_mem with comma | ⟨piece, piece_mem, in_piece⟩
        · rw [comma]
          decide
        · obtain ⟨parameter, _, rfl⟩ := List.mem_map.mp piece_mem
          rw [List.mem_singleton.mp in_piece]
          exact mem_statementKinds parameter (by decide)
      simp only [List.forall_mem_cons, List.forall_mem_append]
      exact ⟨mem_statementKinds keyword (by decide), mem_statementKinds name (by decide),
        mem_statementKinds leftParen (by decide), inner, mem_statementKinds rightParen (by decide),
        mem_statementKinds leftBrace (by decide), body, mem_statementKinds rightBrace (by decide),
        by simp⟩
  | undeclared _ ih => exact ih
  | @expression _ semicolon _ _ derives =>
      exact List.forall_mem_append.mpr ⟨derives.mem_statementKinds,
        by simp [mem_statementKinds semicolon (by decide)]⟩
  | @print _ keyword semicolon _ _ derives | @sleep _ keyword semicolon _ _ derives =>
      have inner := derives.mem_statementKinds
      simp only [List.forall_mem_cons, List.forall_mem_append]
      exact ⟨mem_statementKinds keyword (by decide), inner,
        mem_statementKinds semicolon (by decide), by simp⟩
  | @ifThen _ keyword leftParen rightParen _ _ _ _ condition_derives _ ih
  | @whileLoop _ keyword leftParen rightParen _ _ _ _ condition_derives _ ih =>
      have condition := condition_derives.mem_statementKinds
      simp only [List.forall_mem_cons, List.forall_mem_append]
      exact ⟨mem_statementKinds keyword (by decide), mem_statementKinds leftParen (by decide),
        condition, mem_statementKinds rightParen (by decide), ih⟩
  | @ifElse _ keyword leftParen rightParen elseWord _ _ _ _ _ _ condition_derives _ _ _ ih
      alternative_ih =>
      have condition := condition_derives.mem_statementKinds
      simp only [List.forall_mem_cons, List.forall_mem_append]
      exact ⟨mem_statementKinds keyword (by decide), mem_statementKinds leftParen (by decide),
        condition, mem_statementKinds rightParen (by decide), ih,
        mem_statementKinds elseWord (by decide), alternative_ih⟩
  | @forLoop _ keyword leftParen rightParen semicolon _ _ _ _ _ _ _ _ initializer_derives
      condition_derives increment_derives _ ih =>
      have initializer := initializer_derives.kind_mem
      have condition := condition_derives.kind_mem
      have increment := increment_derives.kind_mem
      simp only [List.forall_mem_cons, List.forall_mem_append]
      exact ⟨mem_statementKinds keyword (by decide), mem_statementKinds leftParen (by decide),
        initializer, condition, mem_statementKinds semicolon (by decide), increment,
        mem_statementKinds rightParen (by decide), ih⟩
  | @breakLoop _ keyword semicolon | @continueLoop _ keyword semicolon =>
      simp [mem_statementKinds keyword (by decide), mem_statementKinds semicolon (by decide)]
  | @returnValue _ keyword semicolon _ _ _ derives =>
      have inner := derives.kind_mem
      simp only [List.forall_mem_cons, List.forall_mem_append]
      exact ⟨mem_statementKinds keyword (by decide), inner,
        mem_statementKinds semicolon (by decide), by simp⟩
  | @block _ leftBrace rightBrace _ _ skips ih =>
      have body := parts_mem ih skips
      simp only [List.forall_mem_cons, List.forall_mem_append]
      exact ⟨mem_statementKinds leftBrace (by decide), body,
        mem_statementKinds rightBrace (by decide), by simp⟩

/-- No end of input stands in a program. -/
theorem DerivesProgram.kind_ne_endOfInput (whole : ¬Skips tolerated) {tokens : List Token}
    {program : List Stmt} (derives : DerivesProgram tolerated tokens program) :
    ∀ token ∈ tokens, token.kind ≠ .endOfInput := by
  rcases derives with ⟨parts, derive, skips, rfl, rfl⟩
  rintro token token_mem kind_eq
  obtain ⟨part, part_mem, in_part⟩ := List.mem_flatMap.mp token_mem
  cases statement_eq : part.2 with
  | none => exact whole (skips part part_mem statement_eq)
  | some statement =>
      have kind_mem := (derive part part_mem statement statement_eq).kind_mem whole token in_part
      rw [kind_eq] at kind_mem
      exact absurd kind_mem (by decide)

end Scriptlet.Grammar
