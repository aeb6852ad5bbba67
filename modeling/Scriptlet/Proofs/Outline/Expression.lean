import Scriptlet.Expr.Outline
import Scriptlet.Parser.Expression
import Scriptlet.Proofs.Grammar.Lines
import Scriptlet.Proofs.Outline.Text

/-!
# Expressions read back from their outlines

The outline of an expression says which one it is, up to the lines of its tokens: the words are
scanned again with the same segmentation, the first word of a list and the number of its other items
tell the constructs apart.
-/

namespace Scriptlet

open Text (Segmentation)

variable {segmentation : Segmentation}

namespace Outline

/-- The token that a word is scanned as, without its line. -/
def word? (segmentation : Segmentation) (text : String) : Option Token :=
  match (Scan.ofString segmentation text).tokens.body with
  | [token] => some token.withoutLine
  | _ => none

theorem word?_eq_some_iff {text : String} {token : Token} :
    word? segmentation text = some token
      ↔ (Scan.ofString segmentation text).tokens.body.map Token.withoutLine = [token] := by
  rw [word?]
  split
  · next found => rw [found, Option.some.injEq, List.map_singleton, List.singleton_inj]
  · next others =>
      refine ⟨nofun, fun same => ?_⟩
      rcases List.map_eq_singleton_iff.mp same with ⟨found, found_eq, -⟩
      exact absurd found_eq (others found)

theorem word?_lexeme [segmentation.IsLocal] {token : Token}
    (scanned : token.Scanned segmentation) :
    word? segmentation token.lexeme = some token.withoutLine :=
  word?_eq_some_iff.mpr scanned.scan_lexeme

/-- Whether a text is the word that a token, here without its line, is scanned from. -/
structure IsWord (segmentation : Segmentation) (text : String) (token : Token) : Prop where
  worded : Worded segmentation (.atom text)
  read : word? segmentation text = some token

namespace IsWord

theorem of_word? {text : String} {token : Token} (read : word? segmentation text = some token)
    (lexeme_eq : token.lexeme = text) (no_left : token.kind ≠ .leftParen)
    (no_right : token.kind ≠ .rightParen) : IsWord segmentation text token := by
  refine ⟨?_, read⟩
  rcases List.map_eq_singleton_iff.mp (word?_eq_some_iff.mp read) with ⟨found, found_eq, rfl⟩
  have scanned : found.Scanned segmentation := ⟨text, found_eq ▸ List.mem_singleton_self found⟩
  have worded : Worded segmentation (.atom found.lexeme) := .atom scanned no_left no_right
  rw [← lexeme_eq]
  exact worded

variable [segmentation.IsLocal]

theorem of_scanned {token : Token} (scanned : token.Scanned segmentation)
    (no_left : token.kind ≠ .leftParen) (no_right : token.kind ≠ .rightParen) :
    IsWord segmentation token.lexeme token.withoutLine :=
  ⟨.atom scanned no_left no_right, word?_lexeme scanned⟩

theorem of_name {name : Name} (scanned : name.token.Scanned segmentation) :
    IsWord segmentation name.lexeme name.withoutLine.token :=
  of_scanned scanned (by rw [name.kind_eq]; decide) (by rw [name.kind_eq]; decide)

end IsWord

/-- The words of constructs that have no sign or keyword of their own. -/
def ownWords : List String := ["group", "call", "block"]

/-- The kinds whose spelling is the word of a construct. -/
def wordKinds : List Token.Kind := [
  .equal, .semicolon, .printWord, .sleepWord, .varWord, .funWord, .ifWord, .whileWord,
  .forWord, .breakWord, .continueWord, .returnWord]

section

variable [segmentation.IsLocal]

/-- How a word of plain characters is scanned. -/
theorem word?_eq_of_plain {text : String} {token : Token}
    (plain : text.toList.all (fun char => decide (Text.IsPlain char)) = true)
    (read : (Scan.ofClusters (text.toList.map Text.Cluster.single)).tokens.body.map
      Token.withoutLine = [token]) : word? segmentation text = some token := by
  rw [word?_eq_some_iff, Scan.ofString_of_plain (Text.isPlain_of_all plain), read]

theorem isWord_of_mem_ownWords {word : String} (word_mem : word ∈ ownWords) :
    IsWord segmentation word ⟨.identifier, word, none, 0⟩ := by
  have plain : ∀ word ∈ ownWords,
      word.toList.all (fun char => decide (Text.IsPlain char)) = true := by
    decide
  have read : ∀ word ∈ ownWords, (Scan.ofClusters
      (word.toList.map Text.Cluster.single)).tokens.body.map Token.withoutLine
        = [⟨.identifier, word, none, 0⟩] := by
    decide +kernel
  exact .of_word? (word?_eq_of_plain (plain word word_mem) (read word word_mem)) rfl
    Token.Kind.noConfusion Token.Kind.noConfusion

theorem isWord_of_mem_wordKinds (kind : Token.Kind) (kind_mem : kind ∈ wordKinds) :
    IsWord segmentation (kind.spelling?.getD "") (Token.plain kind) := by
  have plain : ∀ kind ∈ wordKinds, (kind.spelling?.getD "").toList.all
      (fun char => decide (Text.IsPlain char)) = true := by
    decide
  have read : ∀ kind ∈ wordKinds, (Scan.ofClusters
      ((kind.spelling?.getD "").toList.map Text.Cluster.single)).tokens.body.map Token.withoutLine
        = [Token.plain kind] := by
    decide +kernel
  refine .of_word? (word?_eq_of_plain (plain kind kind_mem) (read kind kind_mem)) rfl ?_ ?_ <;>
    rintro rfl <;> exact absurd kind_mem (by decide)

/-- Only names are spelled as the words of constructs without a sign or keyword. -/
theorem lexeme_not_mem_ownWords {token : Token} (scanned : token.Scanned segmentation)
    (no_name : token.kind ≠ .identifier) : token.lexeme ∉ ownWords := by
  intro word_mem
  have same := (word?_lexeme scanned).symm.trans (isWord_of_mem_ownWords word_mem).read
  exact no_name (congrArg Token.kind (Option.some.inj same))

end

theorem Worded.construct {word : String} {parts : List Outline}
    (word_worded : Worded segmentation (.atom word))
    (parts_worded : ∀ part ∈ parts, Worded segmentation part) :
    Worded segmentation (.construct word parts) :=
  .list (List.forall_mem_cons.mpr ⟨word_worded, parts_worded⟩)

end Outline

namespace Literal

theorem literalOf?_ofLiteral (value : Literal) :
    Parser.literalOf? (Token.ofLiteral value) = some value := by
  rcases value with _ | (_ | _) | _ | _ <;> rfl

theorem word?_text [segmentation.IsLocal] {value : Literal}
    (writable : Expr.Writable segmentation value) :
    Outline.word? segmentation value.text = some (Token.ofLiteral value) := by
  rcases writable with ⟨⟨token, scanned, denotes⟩, finite⟩
  rcases scanned.exists_writes_literal denotes finite with ⟨text, text_eq, writes⟩
  rw [← text_eq]
  exact Outline.word?_eq_some_iff.mpr writes.scan.2

end Literal

namespace Expr

/-- The expression that a word is. -/
def ofWord? (segmentation : Segmentation) (text : String) : Option Expr := do
  let token ← Outline.word? segmentation text
  match Parser.literalOf? token with
  | some value => some (.literal value)
  | none => reference <$> Token.OfKind.of? .identifier token

/-- The expression of a token with an operand on either side. -/
def ofSides? (token : Token) (left right : Expr) : Option Expr :=
  match Token.OfKind.of? .equal token, left with
  | some _, .reference name => some (.assign name right)
  | some _, _ => none
  | none, _ =>
      match Operator.of? LogicalOperator.kind token [.both, .either] with
      | some operator => some (.logical left operator right)
      | none =>
          (.binary left · right) <$>
            Operator.of? BinaryOperator.kind token Parser.binaryLevels.flatten

/-- The expression of a token with its operands. -/
def ofOperands? (token : Token) : List Expr → Option Expr
  | [operand] => (.unary · operand) <$> Operator.of? UnaryOperator.kind token Parser.unaryOperators
  | [left, right] => ofSides? token left right
  | _ => none

/-- The expression of a construct, from the token of its first word and its parts. -/
def ofParts? (token : Token) (parts : List Expr) : Option Expr :=
  if token.lexeme = "group" then
    match parts with
    | [inner] => some (.grouping inner)
    | _ => none
  else if token.lexeme = "call" then
    match parts with
    | callee :: arguments => some (.call callee ⟨Token.plain .rightParen, rfl⟩ arguments)
    | [] => none
  else ofOperands? token parts

mutual

/-- The expression that an outline shows. -/
def ofOutline? (segmentation : Segmentation) : Outline → Option Expr
  | .atom text => ofWord? segmentation text
  | .list (.atom word :: parts) => do
      let token ← Outline.word? segmentation word
      let parts ← ofOutlines? segmentation parts
      ofParts? token parts
  | .list _ => none

/-- The expressions that outlines show. -/
def ofOutlines? (segmentation : Segmentation) : List Outline → Option (List Expr)
  | [] => some []
  | item :: others => do
      let tree ← ofOutline? segmentation item
      let trees ← ofOutlines? segmentation others
      some (tree :: trees)

end

/-- Whether an outline has the words of tokens and shows an expression. -/
structure IsShown (segmentation : Segmentation) (tree : Expr) (outline : Outline) : Prop where
  worded : outline.Worded segmentation
  read : ofOutline? segmentation outline = some tree

/-- Whether outlines have the words of tokens and show expressions. -/
structure AreShown (segmentation : Segmentation) (trees : List Expr) (outlines : List Outline) :
    Prop where
  worded : ∀ outline ∈ outlines, outline.Worded segmentation
  read : ofOutlines? segmentation outlines = some trees

namespace AreShown

theorem nil : AreShown segmentation [] [] :=
  ⟨by simp, by rw [ofOutlines?]⟩

theorem cons {tree : Expr} {trees : List Expr} {outline : Outline} {outlines : List Outline}
    (shown : tree.IsShown segmentation outline)
    (others_shown : AreShown segmentation trees outlines) :
    AreShown segmentation (tree :: trees) (outline :: outlines) where
  worded := List.forall_mem_cons.mpr ⟨shown.worded, others_shown.worded⟩
  read := by rw [ofOutlines?, shown.read, others_shown.read]; rfl

/-- A construct is shown by its word and its parts. -/
theorem construct {tree : Expr} {trees : List Expr} {word : String} {parts : List Outline}
    (parts_shown : AreShown segmentation trees parts) {token : Token}
    (word_shown : Outline.IsWord segmentation word token)
    (made : ofParts? token trees = some tree) :
    tree.IsShown segmentation (.construct word parts) where
  worded := .construct word_shown.worded parts_shown.worded
  read := by
    rw [Outline.construct, ofOutline?, word_shown.read, parts_shown.read]
    exact made

end AreShown

section

variable [segmentation.IsLocal]

/-- A literal that can be written is shown by its text. -/
theorem isShown_literal {value : Literal} (writable : Writable segmentation value) :
    (literal value).IsShown segmentation (.atom value.text) where
  worded := by
    have no_paren : value.kind ≠ .leftParen ∧ value.kind ≠ .rightParen := by
      rcases value with _ | (_ | _) | _ | _ <;> exact ⟨Token.Kind.noConfusion, Token.Kind.noConfusion⟩
    exact (Outline.IsWord.of_word? (Literal.word?_text writable) rfl no_paren.1 no_paren.2).worded
  read := by
    rw [ofOutline?, ofWord?, Literal.word?_text writable]
    simp only [Option.bind_eq_bind, Option.bind_some, Literal.literalOf?_ofLiteral]

theorem isShown_reference {name : Name} (scanned : name.token.Scanned segmentation) :
    (reference name.withoutLine).IsShown segmentation (.atom name.lexeme) where
  worded := (Outline.IsWord.of_name scanned).worded
  read := by
    rw [ofOutline?, ofWord?, (Outline.IsWord.of_name scanned).read]
    have no_literal : Parser.literalOf? name.withoutLine.token = none := by
      rw [Parser.literalOf?, name.withoutLine.kind_eq]
    simp only [Option.bind_eq_bind, Option.bind_some, no_literal, Token.OfKind.of?_token,
      Option.map_eq_map, Option.map_some]

/-- Kinds of tokens that no operator stands for, where an outline has something else. -/
def otherKinds : List Token.Kind := [.leftParen, .rightParen, .identifier, .equal]

/-- A construct with the word of an operator is shown by the outlines of its operands. -/
theorem AreShown.operation {Family : Type} {kindOf : Family → Token.Kind}
    {operator : Operator kindOf} {tree : Expr} {operands : List Expr} {outlines : List Outline}
    (operands_shown : AreShown segmentation operands outlines)
    (scanned : operator.token.Scanned segmentation)
    (proper : ∀ meaning, kindOf meaning ∉ otherKinds)
    (made : Token.OfKind.of? .equal operator.withoutLine.token = none →
      ofOperands? operator.withoutLine.token operands = some tree) :
    tree.IsShown segmentation (.construct operator.lexeme outlines) := by
  have proper := proper operator.meaning
  simp only [← operator.kind_eq, otherKinds, List.mem_cons, List.not_mem_nil, or_false, not_or]
    at proper
  have other_words : operator.withoutLine.token.lexeme ∉ Outline.ownWords :=
    show operator.token.lexeme ∉ _ from Outline.lexeme_not_mem_ownWords scanned proper.2.2.1
  simp only [Outline.ownWords, List.mem_cons, not_or] at other_words
  apply operands_shown.construct (.of_scanned scanned proper.1 proper.2.1)
  unfold ofParts?
  rw [← made (Token.OfKind.of?_eq_none_iff.mpr proper.2.2.2)]
  exact (if_neg other_words.1).trans (if_neg other_words.2.1)

theorem isShown_unary {operator : Operator UnaryOperator.kind} {operand : Expr} {outline : Outline}
    (scanned : operator.token.Scanned segmentation) (shown : operand.IsShown segmentation outline) :
    (unary operator.withoutLine operand).IsShown segmentation
      (.construct operator.lexeme [outline]) := by
  apply (AreShown.nil.cons shown).operation scanned (by intro meaning; cases meaning <;> decide)
  intro _
  have among : operator.withoutLine.meaning ∈ Parser.unaryOperators := by
    cases operator.withoutLine.meaning <;> decide
  simp only [ofOperands?, Operator.of?_token UnaryOperator.kind_injective among,
    Option.map_eq_map, Option.map_some]

theorem isShown_logical {operator : Operator LogicalOperator.kind} {left right : Expr}
    {leftOutline rightOutline : Outline} (scanned : operator.token.Scanned segmentation)
    (left_shown : left.IsShown segmentation leftOutline)
    (right_shown : right.IsShown segmentation rightOutline) :
    (logical left operator.withoutLine right).IsShown segmentation
      (.construct operator.lexeme [leftOutline, rightOutline]) := by
  apply ((AreShown.nil.cons right_shown).cons left_shown).operation scanned
    (by intro meaning; cases meaning <;> decide)
  intro no_assignment
  have among : operator.withoutLine.meaning ∈ [LogicalOperator.both, .either] := by
    cases operator.withoutLine.meaning <;> decide
  simp only [ofOperands?, ofSides?, no_assignment,
    Operator.of?_token LogicalOperator.kind_injective among]

theorem isShown_binary {operator : Operator BinaryOperator.kind} {left right : Expr}
    {leftOutline rightOutline : Outline} (scanned : operator.token.Scanned segmentation)
    (left_shown : left.IsShown segmentation leftOutline)
    (right_shown : right.IsShown segmentation rightOutline) :
    (binary left operator.withoutLine right).IsShown segmentation
      (.construct operator.lexeme [leftOutline, rightOutline]) := by
  apply ((AreShown.nil.cons right_shown).cons left_shown).operation scanned
    (by intro meaning; cases meaning <;> decide)
  intro no_assignment
  have among : operator.withoutLine.meaning ∈ Parser.binaryLevels.flatten := by
    cases operator.withoutLine.meaning <;> decide
  have no_logical : Operator.of? LogicalOperator.kind operator.withoutLine.token [.both, .either]
      = none := by
    rw [Operator.of?_eq_none_iff, operator.withoutLine.kind_eq]
    cases operator.withoutLine.meaning <;> decide
  simp only [ofOperands?, ofSides?, no_assignment, no_logical,
    Operator.of?_token BinaryOperator.kind_injective among, Option.map_eq_map, Option.map_some]

end

mutual

/-- The outline of an expression that was scanned shows this expression. -/
theorem isShown_outline [segmentation.IsLocal] : ∀ tree : Expr,
    tree.All (Token.Scanned segmentation) (Writable segmentation) →
      tree.withoutLines.IsShown segmentation tree.outline
  | .literal value, writable => isShown_literal writable
  | .reference name, scanned => isShown_reference scanned
  | .grouping inner, scanned => by
      have parts := AreShown.nil.cons (isShown_outline inner scanned)
      exact parts.construct (Outline.isWord_of_mem_ownWords (by decide)) rfl
  | .unary operator operand, scanned => isShown_unary scanned.1 (isShown_outline operand scanned.2)
  | .binary left operator right, scanned =>
      isShown_binary scanned.2.1 (isShown_outline left scanned.1) (isShown_outline right scanned.2.2)
  | .logical left operator right, scanned =>
      isShown_logical scanned.2.1 (isShown_outline left scanned.1)
        (isShown_outline right scanned.2.2)
  | .assign name value, scanned => by
      have parts := (AreShown.nil.cons (isShown_outline value scanned.2)).cons
        (isShown_reference scanned.1)
      exact parts.construct (Outline.isWord_of_mem_wordKinds .equal (by decide)) rfl
  | .call callee paren arguments, scanned => by
      have parts := (areShown_outlines arguments scanned.2.2).cons
        (isShown_outline callee scanned.1)
      refine parts.construct (Outline.isWord_of_mem_ownWords (by decide)) ?_
      have paren_eq : paren.withoutLine = ⟨Token.plain .rightParen, rfl⟩ := by
        simp only [Token.OfKind.withoutLine,
          scanned.2.1.withoutLine_eq paren.kind_eq rfl (by decide)]
        rfl
      rw [withoutLines, paren_eq]
      rfl

theorem areShown_outlines [segmentation.IsLocal] : ∀ arguments : List Expr,
    ListAll (Token.Scanned segmentation) (Writable segmentation) arguments →
      AreShown segmentation (listWithoutLines arguments) (outlines arguments)
  | [], _ => .nil
  | argument :: others, scanned =>
      (areShown_outlines others scanned.2).cons (isShown_outline argument scanned.1)

end

end Expr

end Scriptlet
