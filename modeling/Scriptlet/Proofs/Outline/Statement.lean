import Scriptlet.Proofs.Grammar.StatementLines
import Scriptlet.Proofs.Grammar.StatementProvenance
import Scriptlet.Proofs.Outline.Expression
import Scriptlet.Stmt.Outline

/-!
# Statements read back from their outlines

The outline of a statement says which one it is, up to the lines of its tokens and up to one thing:
a clause of a counting loop that is left out is shown as `nil`, as is one that is written so.
-/

namespace Scriptlet

open Text (Segmentation)

variable {segmentation : Segmentation}

/-- The name that an outline is. -/
def Name.ofOutline? (segmentation : Segmentation) : Outline → Option Name
  | .atom text => (Outline.word? segmentation text).bind (Token.OfKind.of? .identifier)
  | .list _ => none

/-- The declaration that the parts of an outline show. -/
def VariableDeclaration.ofParts? (segmentation : Segmentation) :
    List Outline → Option VariableDeclaration
  | [name] => do
      let name ← Name.ofOutline? segmentation name
      some ⟨name, none⟩
  | [name, initializer] => do
      let name ← Name.ofOutline? segmentation name
      let initializer ← Expr.ofOutline? segmentation initializer
      some ⟨name, some initializer⟩
  | _ => none

/-- The initializer that a word and parts of an outline show. -/
def ForInitializer.ofParts? (segmentation : Segmentation) :
    Token.Kind → List Outline → Option ForInitializer
  | .varWord, parts => .declaration <$> VariableDeclaration.ofParts? segmentation parts
  | .semicolon, [value] => .expression <$> Expr.ofOutline? segmentation value
  | _, _ => none

/-- The first clause of a counting loop that an outline shows. -/
def ForInitializer.ofOutline? (segmentation : Segmentation) : Outline → Option ForInitializer
  | .atom _ => some .absent
  | .list (.atom word :: parts) => do
      let token ← Outline.word? segmentation word
      ofParts? segmentation token.kind parts
  | .list _ => none

namespace Stmt

mutual

/-- The statement that an outline shows, with every clause of its counting loops. -/
def ofOutline? (segmentation : Segmentation) : Outline → Option Stmt
  | .list (.atom word :: parts) => do
      let token ← Outline.word? segmentation word
      ofParts? segmentation token.kind parts
  | .list _ | .atom _ => none

/-- The statement of a construct, from the kind of its first word and its parts. -/
def ofParts? (segmentation : Segmentation) : Token.Kind → List Outline → Option Stmt
  | .semicolon, [value] => .expression <$> Expr.ofOutline? segmentation value
  | .printWord, [value] =>
      .print ⟨Token.plain .printWord, rfl⟩ <$> Expr.ofOutline? segmentation value
  | .sleepWord, [duration] =>
      .sleep ⟨Token.plain .sleepWord, rfl⟩ <$> Expr.ofOutline? segmentation duration
  | .varWord, parts => .declareVariable <$> VariableDeclaration.ofParts? segmentation parts
  | .funWord, name :: .list parameters :: body => do
      let name ← Name.ofOutline? segmentation name
      let parameters ← parameters.mapM (Name.ofOutline? segmentation)
      let body ← ofOutlines? segmentation body
      some (.declareFunction name parameters body)
  | .identifier, statements => .block <$> ofOutlines? segmentation statements
  | .ifWord, [condition, consequence] => do
      let condition ← Expr.ofOutline? segmentation condition
      let consequence ← ofOutline? segmentation consequence
      some (.ifThen condition consequence)
  | .ifWord, [condition, consequence, alternative] => do
      let condition ← Expr.ofOutline? segmentation condition
      let consequence ← ofOutline? segmentation consequence
      let alternative ← ofOutline? segmentation alternative
      some (.ifElse condition consequence alternative)
  | .whileWord, [condition, body] => do
      let condition ← Expr.ofOutline? segmentation condition
      let body ← ofOutline? segmentation body
      some (.whileLoop condition body)
  | .forWord, [initializer, condition, increment, body] => do
      let initializer ← ForInitializer.ofOutline? segmentation initializer
      let condition ← Expr.ofOutline? segmentation condition
      let increment ← Expr.ofOutline? segmentation increment
      let body ← ofOutline? segmentation body
      some (.forLoop initializer (some condition) (some increment) body)
  | .breakWord, [] => some .breakLoop
  | .continueWord, [] => some .continueLoop
  | .returnWord, [] => some (.returnValue none)
  | .returnWord, [value] => (.returnValue ∘ some) <$> Expr.ofOutline? segmentation value
  | _, _ => none

/-- The statements that outlines show. -/
def ofOutlines? (segmentation : Segmentation) : List Outline → Option (List Stmt)
  | [] => some []
  | item :: others => do
      let tree ← ofOutline? segmentation item
      let trees ← ofOutlines? segmentation others
      some (tree :: trees)

end

mutual

/-- A statement in which the clauses of counting loops that are left out are `nil`. -/
def filled : Stmt → Stmt
  | .expression tree => .expression tree
  | .print keyword tree => .print keyword tree
  | .declareVariable declaration => .declareVariable declaration
  | .declareFunction name parameters body => .declareFunction name parameters (listFilled body)
  | .block statements => .block (listFilled statements)
  | .ifThen condition consequence => .ifThen condition consequence.filled
  | .ifElse condition consequence alternative =>
      .ifElse condition consequence.filled alternative.filled
  | .whileLoop condition body => .whileLoop condition body.filled
  | .forLoop initializer condition increment body =>
      .forLoop initializer (some (condition.getD (.literal .nil)))
        (some (increment.getD (.literal .nil))) body.filled
  | .breakLoop => .breakLoop
  | .continueLoop => .continueLoop
  | .returnValue value => .returnValue value
  | .sleep keyword duration => .sleep keyword duration

/-- Statements in which every clause that is left out of a loop is filled. -/
def listFilled : List Stmt → List Stmt
  | [] => []
  | statement :: others => statement.filled :: listFilled others

end

/-- Whether an outline has the words of tokens and shows a statement. -/
structure IsShown (segmentation : Segmentation) (tree : Stmt) (outline : Outline) : Prop where
  worded : outline.Worded segmentation
  read : ofOutline? segmentation outline = some tree

/-- Whether outlines have the words of tokens and show statements. -/
structure AreShown (segmentation : Segmentation) (trees : List Stmt) (outlines : List Outline) :
    Prop where
  worded : ∀ outline ∈ outlines, outline.Worded segmentation
  read : ofOutlines? segmentation outlines = some trees

/-- A construct is shown by its word and its parts. -/
theorem isShown_construct {tree : Stmt} {word : String} {token : Token} {parts : List Outline}
    (word_shown : Outline.IsWord segmentation word token)
    (parts_worded : ∀ part ∈ parts, part.Worded segmentation)
    (made : ofParts? segmentation token.kind parts = some tree) :
    tree.IsShown segmentation (.construct word parts) where
  worded := .construct word_shown.worded parts_worded
  read := by
    rw [Outline.construct, ofOutline?, word_shown.read]
    exact made

theorem isShown_word [segmentation.IsLocal] {tree : Stmt} (kind : Token.Kind) {parts : List Outline}
    (kind_mem : kind ∈ Outline.wordKinds) (parts_worded : ∀ part ∈ parts, part.Worded segmentation)
    (made : ofParts? segmentation kind parts = some tree) :
    tree.IsShown segmentation (.construct (kind.spelling?.getD "") parts) :=
  isShown_construct (Outline.isWord_of_mem_wordKinds kind kind_mem) parts_worded made

/-- Statements are shown together if each of them is. -/
theorem areShown_of_forall {statements : List Stmt}
    (shown : ∀ statement ∈ statements,
      statement.filled.withoutLines.IsShown segmentation statement.outline) :
    AreShown segmentation (listWithoutLines (listFilled statements)) (outlines statements) := by
  induction statements with
  | nil => exact ⟨by simp [outlines], by rw [outlines, ofOutlines?]; rfl⟩
  | cons statement others ih =>
      rw [List.forall_mem_cons] at shown
      have others_shown := ih shown.2
      refine ⟨List.forall_mem_cons.mpr ⟨shown.1.worded, others_shown.worded⟩, ?_⟩
      rw [outlines, ofOutlines?, shown.1.read, others_shown.read]
      rfl

end Stmt

/-- Whether a token was scanned and denotes no infinite number. -/
def Token.Writable (segmentation : Segmentation) (token : Token) : Prop :=
  token.Scanned segmentation ∧ ∀ value ∈ token.literal, value.isFinite = true

section

variable [segmentation.IsLocal]

theorem Expr.writable_nil : Writable segmentation .nil := by
  refine ⟨⟨⟨.nilWord, "nil", some .nil, 1⟩, ⟨"nil", ?_⟩, rfl⟩, rfl⟩
  rw [Scan.ofString_of_plain (Text.isPlain_of_all (by decide))]
  decide +kernel

/-- Names that were scanned are shown by their texts. -/
theorem Name.ofOutline?_lexeme {name : Name} (scanned : name.token.Scanned segmentation) :
    Name.ofOutline? segmentation (.atom name.lexeme) = some name.withoutLine := by
  rw [Name.ofOutline?, (Outline.IsWord.of_name scanned).read, Option.bind_some,
    Token.OfKind.of?_token]

theorem Name.mapM_ofOutline?_lexeme {names : List Name}
    (scanned : ∀ name ∈ names, name.token.Scanned segmentation) :
    (names.map fun name => Outline.atom name.lexeme).mapM (Name.ofOutline? segmentation)
      = some (names.map Token.OfKind.withoutLine) := by
  induction names with
  | nil => rfl
  | cons name others ih =>
      rw [List.forall_mem_cons] at scanned
      rw [List.map_cons, List.mapM_cons, ofOutline?_lexeme scanned.1, ih scanned.2]
      rfl

end

namespace Grammar

variable [segmentation.IsLocal] {tolerated : Tolerance} {tokens : List Token}

theorem DerivesExpr.isShown {tree : Expr}
    (derives : DerivesExpr tolerated .assignment tokens tree)
    (writable : ∀ token ∈ tokens, token.Writable segmentation) :
    tree.withoutLines.IsShown segmentation tree.outline := by
  apply Expr.isShown_outline
  refine derives.all (fun token token_mem => (writable token token_mem).1) ?_ (by rintro left ⟨⟩)
  intro token token_mem kind_mem
  refine ⟨(writable token token_mem).1.literal kind_mem, ?_⟩
  cases denotes : token.literal with
  | none => rfl
  | some value => exact (writable token token_mem).2 value denotes

/-- A clause that is left out is shown as `nil`. -/
theorem DerivesOptional.isShown {optional : Option Expr}
    (derives : DerivesOptional tolerated tokens optional)
    (writable : ∀ token ∈ tokens, token.Writable segmentation) :
    (optional.getD (.literal .nil)).withoutLines.IsShown segmentation
      (Expr.optionalOutline optional) := by
  cases derives with
  | absent => exact Expr.isShown_literal Expr.writable_nil
  | present derives => exact derives.isShown writable

/-- The parts of the outline of a declaration show it. -/
theorem DerivesVariable.isShown {declaration : VariableDeclaration}
    (derives : DerivesVariable tolerated tokens declaration)
    (writable : ∀ token ∈ tokens, token.Writable segmentation) : ∃ parts : List Outline,
      declaration.outline = .construct "var" parts ∧ (∀ part ∈ parts, part.Worded segmentation) ∧
        VariableDeclaration.ofParts? segmentation parts = some declaration.withoutLines := by
  cases derives with
  | bare =>
      rw [List.forall_mem_cons] at writable
      have scanned := writable.1.1
      refine ⟨_, rfl, ?_, ?_⟩
      · exact List.forall_mem_singleton.mpr (Outline.IsWord.of_name scanned).worded
      · simp only [Option.map_none, Option.toList_none, VariableDeclaration.ofParts?,
          Name.ofOutline?_lexeme scanned]
        rfl
  | initialized value_derives =>
      simp only [List.forall_mem_cons, List.forall_mem_append] at writable
      have scanned := writable.1.1
      have shown := value_derives.isShown writable.2.2.1
      refine ⟨_, rfl, ?_, ?_⟩
      · exact List.forall_mem_cons.mpr ⟨(Outline.IsWord.of_name scanned).worded,
          List.forall_mem_singleton.mpr shown.worded⟩
      · simp only [Option.map_some, Option.toList_some, VariableDeclaration.ofParts?,
          Name.ofOutline?_lexeme scanned, shown.read]
        rfl

theorem DerivesInitializer.isShown {initializer : ForInitializer}
    (derives : DerivesInitializer tolerated tokens initializer)
    (writable : ∀ token ∈ tokens, token.Writable segmentation) :
    initializer.outline.Worded segmentation ∧
      ForInitializer.ofOutline? segmentation initializer.outline
        = some initializer.withoutLines := by
  cases derives with
  | absent => exact ⟨(Expr.isShown_literal Expr.writable_nil).worded, rfl⟩
  | declaration derives =>
      rw [List.forall_mem_cons] at writable
      rcases derives.isShown writable.2 with ⟨parts, outline_eq, parts_worded, made⟩
      have word : Outline.IsWord segmentation "var" (Token.plain .varWord) :=
        Outline.isWord_of_mem_wordKinds .varWord (by decide)
      rw [ForInitializer.outline, outline_eq]
      refine ⟨.construct word.worded parts_worded, ?_⟩
      rw [Outline.construct, ForInitializer.ofOutline?, word.read]
      change ForInitializer.ofParts? segmentation .varWord parts = _
      rw [ForInitializer.ofParts?, made]
      rfl
  | expression derives =>
      rw [List.forall_mem_append] at writable
      have shown := derives.isShown writable.1
      have word : Outline.IsWord segmentation ";" (Token.plain .semicolon) :=
        Outline.isWord_of_mem_wordKinds .semicolon (by decide)
      rw [ForInitializer.outline]
      refine ⟨.construct word.worded (List.forall_mem_singleton.mpr shown.worded), ?_⟩
      rw [Outline.construct, ForInitializer.ofOutline?, word.read]
      change ForInitializer.ofParts? segmentation .semicolon [_] = _
      rw [ForInitializer.ofParts?, shown.read]
      rfl

/-- The keyword of a statement, apart from its line. -/
theorem withoutLine_eq_plain {kind : Token.Kind} {keyword : Token.OfKind kind}
    (scanned : keyword.token.Scanned segmentation) {spelling : String}
    (spelled : kind.spelling? = some spelling)
    (no_literal : kind ∉ literalKinds) : keyword.withoutLine = ⟨Token.plain kind, rfl⟩ := by
  simp only [Token.OfKind.withoutLine,
    scanned.withoutLine_eq keyword.kind_eq spelled no_literal]
  rfl

/-- The outline of a statement made of scanned tokens shows the statement. -/
theorem DerivesStmt.isShown {form : Form} {surroundings : Surroundings} {tree : Stmt}
    (derives : DerivesStmt tolerated form surroundings tokens tree)
    (writable : ∀ token ∈ tokens, token.Writable segmentation) :
    tree.filled.withoutLines.IsShown segmentation tree.outline := by
  induction derives with
  | declareVariable derives =>
      rw [List.forall_mem_cons] at writable
      rcases derives.isShown writable.2 with ⟨parts, outline_eq, parts_worded, made⟩
      rw [Stmt.outline, outline_eq]
      apply Stmt.isShown_word .varWord (by decide) parts_worded
      simp only [Stmt.ofParts?, made]
      rfl
  | @declareFunction _ _ _ _ _ _ name parameters inner parts separated _ _ _ body_ih =>
      simp only [List.forall_mem_cons, List.forall_mem_append] at writable
      rcases writable with ⟨-, name_writable, -, inner_writable, -, -, body_writable, -⟩
      have parameters_scanned : ∀ parameter ∈ parameters, parameter.token.Scanned segmentation := by
        intro parameter parameter_mem
        have among := (separated.sublist _ (List.mem_map_of_mem parameter_mem)).subset
        exact (inner_writable _ (among List.mem_cons_self)).1
      have body_shown := Stmt.areShown_of_forall (holds_filterMap body_ih body_writable)
      refine Stmt.isShown_word .funWord (by decide) ?_ ?_
      · simp only [List.forall_mem_cons]
        refine ⟨(Outline.IsWord.of_name name_writable.1).worded, .list ?_, body_shown.worded⟩
        rw [List.forall_mem_map]
        intro parameter parameter_mem
        exact (Outline.IsWord.of_name (parameters_scanned parameter parameter_mem)).worded
      · rw [Stmt.ofParts?, Name.ofOutline?_lexeme name_writable.1,
          Name.mapM_ofOutline?_lexeme parameters_scanned, body_shown.read]
        rfl
  | undeclared _ ih => exact ih writable
  | expression derives =>
      rw [List.forall_mem_append] at writable
      have shown := derives.isShown writable.1
      apply Stmt.isShown_word .semicolon (by decide)
        (List.forall_mem_singleton.mpr shown.worded)
      simp only [Stmt.ofParts?, shown.read]
      rfl
  | print derives =>
      simp only [List.forall_mem_cons, List.forall_mem_append] at writable
      have shown := derives.isShown writable.2.1
      apply Stmt.isShown_word .printWord (by decide)
        (List.forall_mem_singleton.mpr shown.worded)
      simp only [Stmt.ofParts?, shown.read, Stmt.filled, Stmt.withoutLines,
        withoutLine_eq_plain writable.1.1 rfl (by decide)]
      rfl
  | sleep derives =>
      simp only [List.forall_mem_cons, List.forall_mem_append] at writable
      have shown := derives.isShown writable.2.1
      apply Stmt.isShown_word .sleepWord (by decide)
        (List.forall_mem_singleton.mpr shown.worded)
      simp only [Stmt.ofParts?, shown.read, Stmt.filled, Stmt.withoutLines,
        withoutLine_eq_plain writable.1.1 rfl (by decide)]
      rfl
  | ifThen condition_derives _ ih =>
      simp only [List.forall_mem_cons, List.forall_mem_append] at writable
      rcases writable with ⟨-, -, condition_writable, -, consequence_writable⟩
      have condition_shown := condition_derives.isShown condition_writable
      have consequence_shown := ih consequence_writable
      refine Stmt.isShown_word .ifWord (by decide) ?_ ?_
      · simp [condition_shown.worded, consequence_shown.worded]
      · rw [Stmt.ofParts?, condition_shown.read, consequence_shown.read]
        rfl
  | ifElse condition_derives _ _ _ consequence_ih alternative_ih =>
      simp only [List.forall_mem_cons, List.forall_mem_append] at writable
      rcases writable with ⟨-, -, condition_writable, -, consequence_writable, -,
        alternative_writable⟩
      have condition_shown := condition_derives.isShown condition_writable
      have consequence_shown := consequence_ih consequence_writable
      have alternative_shown := alternative_ih alternative_writable
      refine Stmt.isShown_word .ifWord (by decide) ?_ ?_
      · simp [condition_shown.worded, consequence_shown.worded, alternative_shown.worded]
      · rw [Stmt.ofParts?, condition_shown.read, consequence_shown.read, alternative_shown.read]
        rfl
  | whileLoop condition_derives _ ih =>
      simp only [List.forall_mem_cons, List.forall_mem_append] at writable
      rcases writable with ⟨-, -, condition_writable, -, body_writable⟩
      have condition_shown := condition_derives.isShown condition_writable
      have body_shown := ih body_writable
      refine Stmt.isShown_word .whileWord (by decide) ?_ ?_
      · simp [condition_shown.worded, body_shown.worded]
      · rw [Stmt.ofParts?, condition_shown.read, body_shown.read]
        rfl
  | forLoop initializer_derives condition_derives increment_derives _ ih =>
      simp only [List.forall_mem_cons, List.forall_mem_append] at writable
      rcases writable with
        ⟨-, -, initializer_writable, condition_writable, -, increment_writable, -, body_writable⟩
      have initializer_shown := initializer_derives.isShown initializer_writable
      have condition_shown := condition_derives.isShown condition_writable
      have increment_shown := increment_derives.isShown increment_writable
      have body_shown := ih body_writable
      refine Stmt.isShown_word .forWord (by decide) ?_ ?_
      · simp [initializer_shown.1, condition_shown.worded, increment_shown.worded,
          body_shown.worded]
      · rw [Stmt.ofParts?, initializer_shown.2, condition_shown.read, increment_shown.read,
          body_shown.read]
        rfl
  | breakLoop =>
      exact Stmt.isShown_word .breakWord (by decide) (by simp) (by rw [Stmt.ofParts?]; rfl)
  | continueLoop =>
      exact Stmt.isShown_word .continueWord (by decide) (by simp)
        (by rw [Stmt.ofParts?]; rfl)
  | returnValue _ value_derives =>
      simp only [List.forall_mem_cons, List.forall_mem_append] at writable
      cases value_derives with
      | absent =>
          have made : Stmt.ofParts? segmentation .returnWord [] = some (.returnValue none) := by
            rw [Stmt.ofParts?]
          exact Stmt.isShown_word .returnWord (by decide) (List.forall_mem_nil _) made
      | present derives =>
          have shown := derives.isShown writable.2.1
          apply Stmt.isShown_word .returnWord (by decide)
            (List.forall_mem_singleton.mpr shown.worded)
          rw [Stmt.ofParts?, shown.read]
          rfl
  | block _ _ ih =>
      simp only [List.forall_mem_cons, List.forall_mem_append] at writable
      have shown := Stmt.areShown_of_forall (holds_filterMap ih writable.2.1)
      apply Stmt.isShown_construct (Outline.isWord_of_mem_ownWords (by decide)) shown.worded
      rw [Stmt.ofParts?, shown.read]
      rfl

/-- The outlines of a program made of scanned tokens show the program. -/
theorem DerivesProgram.areShown {program : List Stmt}
    (derives : DerivesProgram tolerated tokens program)
    (writable : ∀ token ∈ tokens, token.Writable segmentation) :
    Stmt.AreShown segmentation (Stmt.listWithoutLines (Stmt.listFilled program))
      (Stmt.outlines program) := by
  rcases derives with ⟨parts, derive, _, rfl, rfl⟩
  apply Stmt.areShown_of_forall
  refine holds_filterMap ?_ writable
  intro part part_mem statement statement_mem
  exact (derive part part_mem statement statement_mem).isShown

end Grammar

end Scriptlet
