import Scriptlet.Proofs.Grammar.Kinds

/-!
# Semicolons end statements

The first semicolon of a statement is its last token, or an `else` follows, unless the statement has
a brace or a counting loop before it.
-/

namespace Scriptlet.Grammar

variable {tolerated : Tolerance} {segment others before after : List Token} {token last : Token}

/-- A token that is in no beginning of a list is behind it. -/
theorem exists_later (whole : segment ++ others = before ++ token :: after)
    (absent : ∀ other ∈ segment, other.kind ≠ token.kind) :
    ∃ later, before = segment ++ later ∧ others = later ++ token :: after := by
  rcases List.append_eq_append_iff.mp whole with ⟨later, before_eq, others_eq⟩ |
    ⟨later, segment_eq, after_eq⟩
  · exact ⟨later, before_eq, others_eq⟩
  · cases later with
    | nil => exact ⟨[], by simpa using segment_eq.symm, by simpa using after_eq.symm⟩
    | cons next later =>
        cases after_eq
        exact absurd rfl (absent token (by simp [segment_eq]))

theorem exists_after_first {first : Token} (whole : first :: others = before ++ token :: after)
    (different : first.kind ≠ token.kind) :
    ∃ later, before = [first] ++ later ∧ others = later ++ token :: after := by
  have split : [first] ++ others = before ++ token :: after := whole
  exact exists_later split (by simpa using different)

theorem after_eq_nil (whole : segment ++ [last] = before ++ token :: after)
    (absent : ∀ other ∈ segment, other.kind ≠ token.kind) : after = [] := by
  obtain ⟨later, _, last_eq⟩ := exists_later whole absent
  have length_eq := congrArg List.length last_eq
  simp only [List.length_append, List.length_cons, List.length_nil] at length_eq
  exact List.eq_nil_of_length_eq_zero (by omega)

/-- Every statement has a semicolon or an opening brace. -/
theorem DerivesStmt.exists_stop {form : Form} {surroundings : Surroundings} {tokens : List Token}
    {tree : Stmt} (derives : DerivesStmt tolerated form surroundings tokens tree) :
    ∃ token ∈ tokens, token.kind = .semicolon ∨ token.kind = .leftBrace := by
  induction derives with
  | declareVariable derives =>
      cases derives with
      | @bare _ semicolon => exact ⟨semicolon.token, by simp, .inl semicolon.kind_eq⟩
      | @initialized _ _ semicolon => exact ⟨semicolon.token, by simp, .inl semicolon.kind_eq⟩
  | @declareFunction _ _ _ _ leftBrace =>
      exact ⟨leftBrace.token, by simp, .inr leftBrace.kind_eq⟩
  | @block _ leftBrace => exact ⟨leftBrace.token, by simp, .inr leftBrace.kind_eq⟩
  | undeclared _ ih => exact ih
  | @expression _ semicolon | @print _ _ semicolon | @sleep _ _ semicolon
  | @breakLoop _ _ semicolon | @continueLoop _ _ semicolon | @returnValue _ _ semicolon =>
      exact ⟨semicolon.token, by simp, .inl semicolon.kind_eq⟩
  | @forLoop _ _ _ _ semicolon => exact ⟨semicolon.token, by simp, .inl semicolon.kind_eq⟩
  | ifThen _ _ ih | whileLoop _ _ ih | ifElse _ _ _ _ ih =>
      obtain ⟨token, token_mem, stops⟩ := ih
      exact ⟨token, by simp [token_mem], stops⟩

/-- A token that neither ends a statement nor goes on with it behind a semicolon. -/
def Plain (token : Token) : Prop :=
  token.kind ≠ .semicolon ∧ token.kind ≠ .leftBrace ∧ token.kind ≠ .forWord

theorem DerivesStmt.ends_at_semicolon {form : Form} {surroundings : Surroundings}
    {tokens : List Token} {tree : Stmt}
    (derives : DerivesStmt tolerated form surroundings tokens tree)
    (tokens_eq : tokens = before ++ token :: after) (token_kind : token.kind = .semicolon)
    (plain : ∀ other ∈ before, Plain other) : ∀ next ∈ after.head?, next.kind = .elseWord := by
  have known {kind : Token.Kind} (known : Token.OfKind kind) (other : kind ≠ .semicolon) :
      known.token.kind ≠ token.kind := by rwa [known.kind_eq, token_kind]
  have inner {category : Category} {tokens : List Token} {tree : Expr}
      (derives : DerivesExpr tolerated category tokens tree) :
      ∀ other ∈ tokens, other.kind ≠ token.kind := by
    rw [token_kind]
    exact derives.kind_ne (by decide)
  have optional {tokens : List Token} {value : Option Expr}
      (derives : DerivesOptional tolerated tokens value) :
      ∀ other ∈ tokens, other.kind ≠ token.kind := by
    cases derives with
    | absent => simp
    | present derives => exact inner derives
  have at_end {segment before after : List Token} {last : Token}
      (whole : segment ++ [last] = before ++ token :: after)
      (absent : ∀ other ∈ segment, other.kind ≠ token.kind) :
      ∀ next ∈ after.head?, next.kind = .elseWord := by
    simp [after_eq_nil whole absent]
  induction derives generalizing before after with
  | @declareVariable _ keyword _ _ derives =>
      have absent := known keyword (by decide)
      cases derives with
      | @bare name semicolon =>
          have whole : [keyword.token, name.token] ++ [semicolon.token] =
              before ++ token :: after := tokens_eq
          exact at_end whole (by simp [absent, known name])
      | @initialized name equals semicolon tokens _ derives =>
          have whole : (keyword.token :: name.token :: equals.token :: tokens) ++
              [semicolon.token] = before ++ token :: after := tokens_eq
          refine at_end whole ?_
          simp only [List.forall_mem_cons]
          exact ⟨absent, known name (by decide), known equals (by decide), inner derives⟩
  | @declareFunction _ keyword leftParen rightParen leftBrace rightBrace name _ list parts
      separated =>
      have whole : (keyword.token :: name.token :: leftParen.token ::
          (list ++ [rightParen.token, leftBrace.token])) ++
          (parts.flatMap Prod.fst ++ [rightBrace.token]) = before ++ token :: after := by
        simpa using tokens_eq
      have listed : ∀ other ∈ list, other.kind ≠ token.kind := by
        intro other other_mem
        rcases separated.mem other other_mem with comma | ⟨piece, piece_mem, in_piece⟩
        · rw [comma, token_kind]
          decide
        · obtain ⟨parameter, _, rfl⟩ := List.mem_map.mp piece_mem
          rw [List.mem_singleton.mp in_piece]
          exact known parameter (by decide)
      obtain ⟨later, rfl, _⟩ := exists_later whole (by
        simp only [List.forall_mem_cons, List.forall_mem_append]
        exact ⟨known keyword (by decide), known name (by decide), known leftParen (by decide),
          listed, known rightParen (by decide), known leftBrace (by decide), by simp⟩)
      exact absurd leftBrace.kind_eq (plain leftBrace.token (by simp)).2.1
  | undeclared _ ih => exact ih tokens_eq plain
  | expression derives => exact at_end tokens_eq (inner derives)
  | @print _ keyword semicolon tokens _ derives | @sleep _ keyword semicolon tokens _ derives =>
      have whole : (keyword.token :: tokens) ++ [semicolon.token] = before ++ token :: after :=
        tokens_eq
      exact at_end whole (List.forall_mem_cons.mpr ⟨known keyword (by decide), inner derives⟩)
  | @breakLoop _ keyword semicolon | @continueLoop _ keyword semicolon =>
      have whole : [keyword.token] ++ [semicolon.token] = before ++ token :: after := tokens_eq
      exact at_end whole (by simp [known keyword])
  | @returnValue _ keyword semicolon tokens _ _ derives =>
      have whole : (keyword.token :: tokens) ++ [semicolon.token] = before ++ token :: after :=
        tokens_eq
      exact at_end whole (List.forall_mem_cons.mpr ⟨known keyword (by decide), optional derives⟩)
  | @ifThen _ keyword leftParen rightParen tokens consequenceTokens _ _ condition_derives _ ih
  | @whileLoop _ keyword leftParen rightParen tokens consequenceTokens _ _ condition_derives _ ih =>
      have whole : (keyword.token :: leftParen.token :: (tokens ++ [rightParen.token])) ++
          consequenceTokens = before ++ token :: after := by simpa using tokens_eq
      obtain ⟨later, rfl, rest_eq⟩ := exists_later whole (by
        simp only [List.forall_mem_cons, List.forall_mem_append]
        exact ⟨known keyword (by decide), known leftParen (by decide), inner condition_derives,
          known rightParen (by decide), by simp⟩)
      exact ih rest_eq fun other other_mem => plain other (List.mem_append_right _ other_mem)
  | @ifElse _ keyword leftParen rightParen elseWord tokens consequenceTokens alternativeTokens _ _ _
      condition_derives consequence_derives _ _ ih =>
      have whole : (keyword.token :: leftParen.token :: (tokens ++ [rightParen.token])) ++
          (consequenceTokens ++ elseWord.token :: alternativeTokens) =
            before ++ token :: after := by simpa using tokens_eq
      obtain ⟨later, rfl, rest_eq⟩ := exists_later whole (by
        simp only [List.forall_mem_cons, List.forall_mem_append]
        exact ⟨known keyword (by decide), known leftParen (by decide), inner condition_derives,
          known rightParen (by decide), by simp⟩)
      rcases List.append_eq_append_iff.mp rest_eq with ⟨beyond, rfl, _⟩ | ⟨within, inside, after_eq⟩
      · obtain ⟨stop, stop_mem, stops⟩ := consequence_derives.exists_stop
        have plain_stop := plain stop (by simp [stop_mem])
        exact (stops.elim plain_stop.1 plain_stop.2.1).elim
      · cases within with
        | nil =>
            cases after_eq
            exact absurd token_kind (by rw [elseWord.kind_eq]; decide)
        | cons _ within =>
            cases after_eq
            intro next next_mem
            cases within with
            | nil =>
                cases next_mem
                exact elseWord.kind_eq
            | cons first within =>
                refine ih inside (fun other other_mem => plain other ?_) next next_mem
                exact List.mem_append_right _ other_mem
  | @forLoop _ keyword =>
      obtain ⟨later, rfl, _⟩ := exists_after_first tokens_eq (known keyword (by decide))
      exact absurd keyword.kind_eq (plain keyword.token (by simp)).2.2
  | @block _ leftBrace =>
      obtain ⟨later, rfl, _⟩ := exists_after_first tokens_eq (known leftBrace (by decide))
      exact absurd leftBrace.kind_eq (plain leftBrace.token (by simp)).2.1

end Scriptlet.Grammar
