import Scriptlet.Proofs.Grammar.Lines

/-!
# Derivations of statements apart from lines

Tokens that are the same up to lines as those of a statement or a program derive one that is the
same up to lines. What is around a statement looks at it only for an `if` that is left open, which
has nothing to do with lines either.
-/

namespace Scriptlet

/-- A declaration without the lines of its tokens. -/
def VariableDeclaration.withoutLines (declaration : VariableDeclaration) : VariableDeclaration :=
  ⟨declaration.name.withoutLine, declaration.initializer.map Expr.withoutLines⟩

/-- An initializer without the lines of its tokens. -/
def ForInitializer.withoutLines : ForInitializer → ForInitializer
  | .absent => .absent
  | .declaration declared => .declaration declared.withoutLines
  | .expression tree => .expression tree.withoutLines

namespace Stmt

mutual

/-- A statement without the lines of its tokens. -/
def withoutLines : Stmt → Stmt
  | .expression tree => .expression tree.withoutLines
  | .print keyword tree => .print keyword.withoutLine tree.withoutLines
  | .declareVariable declaration => .declareVariable declaration.withoutLines
  | .declareFunction name parameters body =>
      .declareFunction name.withoutLine (parameters.map Token.OfKind.withoutLine)
        (listWithoutLines body)
  | .block statements => .block (listWithoutLines statements)
  | .ifThen condition consequence => .ifThen condition.withoutLines consequence.withoutLines
  | .ifElse condition consequence alternative =>
      .ifElse condition.withoutLines consequence.withoutLines alternative.withoutLines
  | .whileLoop condition body => .whileLoop condition.withoutLines body.withoutLines
  | .forLoop initializer condition increment body =>
      .forLoop initializer.withoutLines (condition.map Expr.withoutLines)
        (increment.map Expr.withoutLines) body.withoutLines
  | .breakLoop => .breakLoop
  | .continueLoop => .continueLoop
  | .returnValue value => .returnValue (value.map Expr.withoutLines)
  | .sleep keyword duration => .sleep keyword.withoutLine duration.withoutLines

/-- Statements without the lines of their tokens. -/
def listWithoutLines : List Stmt → List Stmt
  | [] => []
  | statement :: others => statement.withoutLines :: listWithoutLines others

end

theorem listWithoutLines_eq (statements : List Stmt) :
    listWithoutLines statements = statements.map withoutLines := by
  induction statements with
  | nil => rfl
  | cons statement others ih => rw [listWithoutLines, ih, List.map_cons]

theorem endsOpen_withoutLines (tree : Stmt) : tree.withoutLines.endsOpen = tree.endsOpen := by
  induction tree using Stmt.endsOpen.induct with
  | case1 => rfl
  | case2 _ _ _ ih | case3 _ _ ih | case4 _ _ _ _ ih => simpa [withoutLines, endsOpen] using ih
  | case5 tree not_then not_else not_while not_for =>
      cases tree with
      | ifThen => exact absurd rfl (not_then _ _)
      | ifElse => exact absurd rfl (not_else _ _ _)
      | whileLoop => exact absurd rfl (not_while _ _)
      | forLoop => exact absurd rfl (not_for _ _ _ _)
      | _ => rfl

end Stmt

namespace Grammar

variable {tolerated : Tolerance}

theorem DerivesVariable.transport {tokens others : List Token}
    {declaration : VariableDeclaration} (derives : DerivesVariable tolerated tokens declaration)
    (same : SameTokens others tokens) :
    ∃ other, DerivesVariable tolerated others other ∧
      other.withoutLines = declaration.withoutLines := by
  cases derives with
  | bare =>
      rcases same.exists_known with ⟨otherName, _, rfl, name_eq, same⟩
      rcases same.exists_known with ⟨otherSemicolon, _, rfl, -, same⟩
      rcases same.eq_nil with rfl
      exact ⟨_, .bare, by simp only [VariableDeclaration.withoutLines, name_eq, Option.map_none]⟩
  | initialized value_derives =>
      rcases same.exists_known with ⟨otherName, _, rfl, name_eq, same⟩
      rcases same.exists_known with ⟨otherEquals, _, rfl, -, same⟩
      rcases same.exists_append with ⟨_, _, rfl, value_same, same⟩
      rcases same.exists_known with ⟨otherSemicolon, _, rfl, -, same⟩
      rcases same.eq_nil with rfl
      rcases value_derives.transport (.whole rfl) value_same with ⟨value, derives, value_eq⟩
      exact ⟨_, .initialized derives,
        by simp only [VariableDeclaration.withoutLines, name_eq, value_eq, Option.map_some]⟩

theorem DerivesOptional.transport {tokens others : List Token} {tree : Option Expr}
    (derives : DerivesOptional tolerated tokens tree) (same : SameTokens others tokens) :
    ∃ other, DerivesOptional tolerated others other ∧
      other.map Expr.withoutLines = tree.map Expr.withoutLines := by
  cases derives with
  | absent =>
      rcases same.eq_nil with rfl
      exact ⟨_, .absent, rfl⟩
  | present derives =>
      rcases derives.transport (.whole rfl) same with ⟨other, other_derives, other_eq⟩
      exact ⟨_, .present other_derives, by simp only [Option.map_some, other_eq]⟩

theorem DerivesInitializer.transport {tokens others : List Token} {tree : ForInitializer}
    (derives : DerivesInitializer tolerated tokens tree) (same : SameTokens others tokens) :
    ∃ other, DerivesInitializer tolerated others other ∧
      other.withoutLines = tree.withoutLines := by
  cases derives with
  | absent =>
      rcases same.exists_known with ⟨otherSemicolon, _, rfl, -, same⟩
      rcases same.eq_nil with rfl
      exact ⟨_, .absent, rfl⟩
  | declaration derives =>
      rcases same.exists_known with ⟨otherKeyword, _, rfl, -, same⟩
      rcases derives.transport same with ⟨other, other_derives, other_eq⟩
      exact ⟨_, .declaration other_derives, by simp only [ForInitializer.withoutLines, other_eq]⟩
  | expression derives =>
      rcases same.exists_append with ⟨_, _, rfl, tree_same, same⟩
      rcases same.exists_known with ⟨otherSemicolon, _, rfl, -, same⟩
      rcases same.eq_nil with rfl
      rcases derives.transport (.whole rfl) tree_same with ⟨other, other_derives, other_eq⟩
      exact ⟨_, .expression other_derives, by simp only [ForInitializer.withoutLines, other_eq]⟩

/-- Parameters between other tokens that are the same up to lines. -/
theorem Separated.exists_parameters {parameters : List Name} {inner others : List Token}
    (separated : Separated (parameters.map fun parameter => [parameter.token]) inner)
    (same : SameTokens others inner) :
    ∃ otherParameters : List Name,
      Separated (otherParameters.map fun parameter => [parameter.token]) others ∧
      otherParameters.length = parameters.length ∧
      otherParameters.map Token.OfKind.withoutLine
        = parameters.map Token.OfKind.withoutLine := by
  rcases separated.exists_same same with ⟨pieces, otherSeparated, pieces_same⟩
  have found : ∀ parameter ∈ parameters, ∀ tokens, SameTokens tokens [parameter.token] →
      ∃ other : Name, [other.token] = tokens ∧ other.withoutLine = parameter.withoutLine := by
    intro parameter _ tokens tokens_same
    rcases tokens_same.exists_known with ⟨other, _, rfl, other_eq, same⟩
    rcases same.eq_nil with rfl
    exact ⟨other, rfl, other_eq⟩
  rcases exists_map_of_forall₂ pieces_same found with ⟨otherParameters, rfl, alike⟩
  exact ⟨otherParameters, otherSeparated, alike.length_eq, map_eq_map_of_forall₂ alike⟩

/-- Whether tokens derive a statement that is the same up to lines as a tree. -/
abbrev DerivesStmtLike (tolerated : Tolerance) (form : Form) (surroundings : Surroundings)
    (tokens : List Token) (tree : Stmt) : Prop :=
  ∃ other, DerivesStmt tolerated form surroundings tokens other ∧
    other.withoutLines = tree.withoutLines

/-- The parts of other tokens that are the same up to lines. -/
theorem exists_parts {surroundings : Surroundings} {parts : List Part} {others : List Token}
    (skips : ∀ part ∈ parts, part.2 = none → Skips tolerated)
    (each : ∀ part ∈ parts, ∀ statement ∈ part.2, ∀ tokens, SameTokens tokens part.1 →
      DerivesStmtLike tolerated .declaration surroundings tokens statement)
    (same : SameTokens others (parts.flatMap Prod.fst)) :
    ∃ otherParts : List Part,
      (∀ part ∈ otherParts, ∀ statement ∈ part.2,
        DerivesStmt tolerated .declaration surroundings part.1 statement) ∧
      (∀ part ∈ otherParts, part.2 = none → Skips tolerated) ∧
      otherParts.flatMap Prod.fst = others ∧
      Stmt.listWithoutLines (otherParts.filterMap Prod.snd)
        = Stmt.listWithoutLines (parts.filterMap Prod.snd) := by
  induction parts generalizing others with
  | nil =>
      rcases SameTokens.eq_nil same with rfl
      exact ⟨[], by simp, by simp, rfl, rfl⟩
  | cons part parts ih =>
      rw [List.forall_mem_cons] at skips each
      rw [List.flatMap_cons] at same
      rcases SameTokens.exists_append same with ⟨first, later, rfl, first_same, later_same⟩
      rcases ih skips.2 each.2 later_same with
        ⟨otherParts, derive, otherSkips, rfl, statements_eq⟩
      rcases part with ⟨tokens, _ | statement⟩
      · refine ⟨(first, none) :: otherParts, ?_, ?_, rfl, statements_eq⟩
        · exact List.forall_mem_cons.mpr ⟨by simp, derive⟩
        · exact List.forall_mem_cons.mpr ⟨fun _ => skips.1 rfl, otherSkips⟩
      · rcases each.1 statement rfl first first_same with ⟨other, other_derives, other_eq⟩
        refine ⟨(first, some other) :: otherParts, ?_, ?_, rfl, ?_⟩
        · exact List.forall_mem_cons.mpr ⟨by simpa using other_derives, derive⟩
        · exact List.forall_mem_cons.mpr ⟨by simp, otherSkips⟩
        · simp only [List.filterMap_cons, Stmt.listWithoutLines, other_eq, statements_eq]

/-- Tokens that are the same up to lines derive the same statement up to lines. -/
theorem DerivesStmt.transport {form : Form} {surroundings : Surroundings} {tokens : List Token}
    {tree : Stmt} (derives : DerivesStmt tolerated form surroundings tokens tree)
    {others : List Token} (same : SameTokens others tokens) :
    DerivesStmtLike tolerated form surroundings others tree := by
  induction derives generalizing others with
  | declareVariable derives =>
      rcases same.exists_known with ⟨keyword, _, rfl, -, same⟩
      rcases derives.transport same with ⟨declaration, other_derives, declaration_eq⟩
      exact ⟨_, .declareVariable other_derives, by simp only [Stmt.withoutLines, declaration_eq]⟩
  | declareFunction separated few _ skips parts_ih =>
      rcases same.exists_known with ⟨keyword, _, rfl, -, same⟩
      rcases same.exists_known with ⟨name, _, rfl, name_eq, same⟩
      rcases same.exists_known with ⟨leftParen, _, rfl, -, same⟩
      rcases same.exists_append with ⟨_, _, rfl, inner_same, same⟩
      rcases same.exists_known with ⟨rightParen, _, rfl, -, same⟩
      rcases same.exists_known with ⟨leftBrace, _, rfl, -, same⟩
      rcases same.exists_append with ⟨_, _, rfl, body_same, same⟩
      rcases same.exists_known with ⟨rightBrace, _, rfl, -, same⟩
      rcases same.eq_nil with rfl
      rcases separated.exists_parameters inner_same with
        ⟨parameters, otherSeparated, length_eq, parameters_eq⟩
      rcases exists_parts skips
          (fun part part_mem tree tree_mem _ => parts_ih part part_mem tree tree_mem)
          body_same with ⟨parts, derive, otherSkips, rfl, body_eq⟩
      refine ⟨_, .declareFunction otherSeparated (length_eq ▸ few) derive otherSkips, ?_⟩
      simp only [Stmt.withoutLines, name_eq, parameters_eq, body_eq]
  | undeclared _ ih =>
      rcases ih same with ⟨other, other_derives, other_eq⟩
      exact ⟨other, .undeclared other_derives, other_eq⟩
  | expression derives =>
      rcases same.exists_append with ⟨_, _, rfl, tree_same, same⟩
      rcases same.exists_known with ⟨semicolon, _, rfl, -, same⟩
      rcases same.eq_nil with rfl
      rcases derives.transport (.whole rfl) tree_same with ⟨other, other_derives, other_eq⟩
      exact ⟨_, .expression other_derives, by simp only [Stmt.withoutLines, other_eq]⟩
  | print derives =>
      rcases same.exists_known with ⟨keyword, _, rfl, keyword_eq, same⟩
      rcases same.exists_append with ⟨_, _, rfl, tree_same, same⟩
      rcases same.exists_known with ⟨semicolon, _, rfl, -, same⟩
      rcases same.eq_nil with rfl
      rcases derives.transport (.whole rfl) tree_same with ⟨other, other_derives, other_eq⟩
      exact ⟨_, .print other_derives, by simp only [Stmt.withoutLines, keyword_eq, other_eq]⟩
  | sleep derives =>
      rcases same.exists_known with ⟨keyword, _, rfl, keyword_eq, same⟩
      rcases same.exists_append with ⟨_, _, rfl, tree_same, same⟩
      rcases same.exists_known with ⟨semicolon, _, rfl, -, same⟩
      rcases same.eq_nil with rfl
      rcases derives.transport (.whole rfl) tree_same with ⟨other, other_derives, other_eq⟩
      exact ⟨_, .sleep other_derives, by simp only [Stmt.withoutLines, keyword_eq, other_eq]⟩
  | ifThen condition_derives _ consequence_ih =>
      rcases same.exists_known with ⟨keyword, _, rfl, -, same⟩
      rcases same.exists_known with ⟨leftParen, _, rfl, -, same⟩
      rcases same.exists_append with ⟨_, _, rfl, condition_same, same⟩
      rcases same.exists_known with ⟨rightParen, _, rfl, -, same⟩
      rcases condition_derives.transport (.whole rfl) condition_same with
        ⟨condition, derives, condition_eq⟩
      rcases consequence_ih same with ⟨consequence, consequence_derives, consequence_eq⟩
      exact ⟨_, .ifThen derives consequence_derives,
        by simp only [Stmt.withoutLines, condition_eq, consequence_eq]⟩
  | ifElse condition_derives _ closed _ consequence_ih alternative_ih =>
      rcases same.exists_known with ⟨keyword, _, rfl, -, same⟩
      rcases same.exists_known with ⟨leftParen, _, rfl, -, same⟩
      rcases same.exists_append with ⟨_, _, rfl, condition_same, same⟩
      rcases same.exists_known with ⟨rightParen, _, rfl, -, same⟩
      rcases same.exists_append with ⟨_, _, rfl, consequence_same, same⟩
      rcases same.exists_known with ⟨elseWord, _, rfl, -, same⟩
      rcases condition_derives.transport (.whole rfl) condition_same with
        ⟨condition, derives, condition_eq⟩
      rcases consequence_ih consequence_same with
        ⟨consequence, consequence_derives, consequence_eq⟩
      rcases alternative_ih same with ⟨alternative, alternative_derives, alternative_eq⟩
      have otherClosed : consequence.endsOpen = false := by
        rw [← consequence.endsOpen_withoutLines, consequence_eq, Stmt.endsOpen_withoutLines, closed]
      exact ⟨_, .ifElse derives consequence_derives otherClosed alternative_derives,
        by simp only [Stmt.withoutLines, condition_eq, consequence_eq, alternative_eq]⟩
  | whileLoop condition_derives _ body_ih =>
      rcases same.exists_known with ⟨keyword, _, rfl, -, same⟩
      rcases same.exists_known with ⟨leftParen, _, rfl, -, same⟩
      rcases same.exists_append with ⟨_, _, rfl, condition_same, same⟩
      rcases same.exists_known with ⟨rightParen, _, rfl, -, same⟩
      rcases condition_derives.transport (.whole rfl) condition_same with
        ⟨condition, derives, condition_eq⟩
      rcases body_ih same with ⟨body, body_derives, body_eq⟩
      exact ⟨_, .whileLoop derives body_derives,
        by simp only [Stmt.withoutLines, condition_eq, body_eq]⟩
  | forLoop initializer_derives condition_derives increment_derives _ body_ih =>
      rcases same.exists_known with ⟨keyword, _, rfl, -, same⟩
      rcases same.exists_known with ⟨leftParen, _, rfl, -, same⟩
      rcases same.exists_append with ⟨_, _, rfl, initializer_same, same⟩
      rcases same.exists_append with ⟨_, _, rfl, condition_same, same⟩
      rcases same.exists_known with ⟨semicolon, _, rfl, -, same⟩
      rcases same.exists_append with ⟨_, _, rfl, increment_same, same⟩
      rcases same.exists_known with ⟨rightParen, _, rfl, -, same⟩
      rcases initializer_derives.transport initializer_same with
        ⟨initializer, otherInitializer, initializer_eq⟩
      rcases condition_derives.transport condition_same with
        ⟨condition, otherCondition, condition_eq⟩
      rcases increment_derives.transport increment_same with
        ⟨increment, otherIncrement, increment_eq⟩
      rcases body_ih same with ⟨body, body_derives, body_eq⟩
      refine ⟨_, .forLoop otherInitializer otherCondition otherIncrement body_derives, ?_⟩
      simp only [Stmt.withoutLines, initializer_eq, condition_eq, increment_eq, body_eq]
  | breakLoop placed =>
      rcases same.exists_known with ⟨keyword, _, rfl, keyword_eq, same⟩
      rcases same.exists_known with ⟨semicolon, _, rfl, -, same⟩
      rcases same.eq_nil with rfl
      have lexeme_eq := Token.OfKind.lexeme_eq_of_withoutLine keyword_eq
      exact ⟨_, .breakLoop (lexeme_eq ▸ placed), rfl⟩
  | continueLoop placed =>
      rcases same.exists_known with ⟨keyword, _, rfl, keyword_eq, same⟩
      rcases same.exists_known with ⟨semicolon, _, rfl, -, same⟩
      rcases same.eq_nil with rfl
      have lexeme_eq := Token.OfKind.lexeme_eq_of_withoutLine keyword_eq
      exact ⟨_, .continueLoop (lexeme_eq ▸ placed), rfl⟩
  | returnValue placed value_derives =>
      rcases same.exists_known with ⟨keyword, _, rfl, -, same⟩
      rcases same.exists_append with ⟨_, _, rfl, value_same, same⟩
      rcases same.exists_known with ⟨semicolon, _, rfl, -, same⟩
      rcases same.eq_nil with rfl
      rcases value_derives.transport value_same with ⟨value, derives, value_eq⟩
      exact ⟨_, .returnValue placed derives, by simp only [Stmt.withoutLines, value_eq]⟩
  | block _ skips parts_ih =>
      rcases same.exists_known with ⟨leftBrace, _, rfl, -, same⟩
      rcases same.exists_append with ⟨_, _, rfl, body_same, same⟩
      rcases same.exists_known with ⟨rightBrace, _, rfl, -, same⟩
      rcases same.eq_nil with rfl
      rcases exists_parts skips
          (fun part part_mem tree tree_mem _ => parts_ih part part_mem tree tree_mem)
          body_same with ⟨parts, derive, otherSkips, rfl, body_eq⟩
      exact ⟨_, .block derive otherSkips, by simp only [Stmt.withoutLines, body_eq]⟩

theorem DerivesProgram.transport {tokens others : List Token} {program : List Stmt}
    (derives : DerivesProgram tolerated tokens program) (same : SameTokens others tokens) :
    ∃ other, DerivesProgram tolerated others other ∧
      Stmt.listWithoutLines other = Stmt.listWithoutLines program := by
  rcases derives with ⟨parts, derive, skips, rfl, rfl⟩
  rcases exists_parts skips
      (fun part part_mem statement statement_mem _ same =>
        (derive part part_mem statement statement_mem).transport same)
      same with ⟨otherParts, otherDerive, otherSkips, tokens_eq, program_eq⟩
  exact ⟨_, ⟨otherParts, otherDerive, otherSkips, tokens_eq, rfl⟩, program_eq⟩

/-- Programs can be written one after the other. -/
theorem DerivesProgram.append {left right : List Token} {first second : List Stmt}
    (left_derives : DerivesProgram tolerated left first)
    (right_derives : DerivesProgram tolerated right second) :
    DerivesProgram tolerated (left ++ right) (first ++ second) := by
  rcases left_derives with ⟨leftParts, left_derive, left_skips, rfl, rfl⟩
  rcases right_derives with ⟨rightParts, right_derive, right_skips, rfl, rfl⟩
  refine ⟨leftParts ++ rightParts, ?_, ?_, List.flatMap_append, List.filterMap_append⟩
  · exact List.forall_mem_append.mpr ⟨left_derive, right_derive⟩
  · exact List.forall_mem_append.mpr ⟨left_skips, right_skips⟩

end Grammar

end Scriptlet
