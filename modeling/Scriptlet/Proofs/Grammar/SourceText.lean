import Scriptlet.Expr.Source
import Scriptlet.Proofs.Grammar.Provenance
import Scriptlet.Proofs.Grammar.Rewrite
import Scriptlet.Proofs.Token.Literal

/-!
# The source text of an expression

The source text of an expression writes the tokens of the expression. Names and numbers in it are
followed by a space or a mark, and no operand starts with the sign that would make a longer symbol
of an operator in front of it.
-/

namespace Scriptlet

open Text (Cluster Segmentation)

namespace Segment

/-- Whether a cluster after some operand would make another token of the end of it. -/
def continuesOperand (next : Cluster) : Bool :=
  isWordPart next || isChar '.' next

/-- Operands that are one token. -/
def operandKinds : List Token.Kind := .rightParen :: .identifier :: Grammar.literalKinds

theorem continuesOperand_of_continues {kind : Token.Kind} (operand : kind ∈ operandKinds)
    (next : Cluster) (continued : continues kind next = true) : continuesOperand next = true := by
  simp only [operandKinds, Grammar.literalKinds, List.mem_cons, List.not_mem_nil, or_false]
    at operand
  rcases operand with rfl | rfl | rfl | rfl | rfl | rfl | rfl
  · cases continued
  · exact Bool.or_eq_true_iff.mpr (.inl continued)
  · exact Bool.or_eq_true_iff.mpr (.inl continued)
  · exact Bool.or_eq_true_iff.mpr (.inl continued)
  · exact Bool.or_eq_true_iff.mpr (.inl continued)
  · rcases Bool.or_eq_true_iff.mp continued with digit | point
    · exact Bool.or_eq_true_iff.mpr (.inl (Bool.or_eq_true_iff.mpr (.inr digit)))
    · exact Bool.or_eq_true_iff.mpr (.inr point)
  · cases continued

/-- The sign of an assignment starts a token: itself, or the sign of a comparison. -/
theorem measure_equal (following : List Cluster) : ∃ kind length,
    measure (.single '=') following = (.token kind, length) ∧
      (kind = .equal ∨ kind = .equalEqual) := by
  have symbol_eq : measure (.single '=') following = measureSymbol .equal following := by rfl
  rw [symbol_eq]
  cases following with
  | nil => exact ⟨.equal, 0, rfl, .inl rfl⟩
  | cons next following =>
      by_cases doubled : isChar '=' next = true
      · exact ⟨.equalEqual, 1, by simp [measureSymbol, withEqual?, doubled], .inr rfl⟩
      · exact ⟨.equal, 0, by simp [measureSymbol, withEqual?, doubled], .inl rfl⟩

theorem continues_space (kind : Token.Kind) : continues kind (.single ' ') = false := by
  cases kind <;> decide

end Segment

namespace Writes

variable {segmentation : Segmentation} {text other : List Cluster} {tokens others : List Token}
  {continues otherContinues : Cluster → Bool}

open Text.Cluster (single)

/-- No text that starts with the sign of an assignment writes another token first. -/
theorem lacks_equal (writes : Writes segmentation text tokens continues)
    (start : ∀ token ∈ tokens.head?, token.kind ≠ .equal ∧ token.kind ≠ .equalEqual) :
    Segment.Lacks (Segment.isChar '=') text := by
  intro next next_mem
  cases is_equal : Segment.isChar '=' next with
  | false => rfl
  | true =>
      cases text with
      | nil => cases next_mem
      | cons first text =>
          cases next_mem
          have first_eq : next = single '=' := of_decide_eq_true is_equal
          subst first_eq
          rcases writes.read [] (Segment.lacks_nil continues) with
            ⟨segments, cut_eq, tokens_eq, -⟩
          rcases Segment.measure_equal text with ⟨kind, length, read, equal⟩
          simp only [List.append_nil, Segment.ofClusters, read] at cut_eq
          rw [← cut_eq] at tokens_eq
          cases tokens with
          | nil => cases tokens_eq
          | cons token tokens =>
              have token_eq := (List.cons.inj tokens_eq).1
              have kind_eq : kind = token.kind := congrArg Token.kind token_eq
              have different := start token rfl
              rw [← kind_eq] at different
              rcases equal with rfl | rfl
              · exact absurd rfl different.1
              · exact absurd rfl different.2

variable [segmentation.IsLocal]

/-- A mark that is one character writes its token. -/
theorem mark {char : Char} {kind : Token.Kind}
    (read : Segment.measure (single char) [] = (.token kind, 0)) (no_string : kind ≠ .string)
    (token_eq : Token.ofClusters kind [single char] 0 = Token.plain kind) :
    Writes segmentation [single char] [Token.plain kind] (Segment.continues kind) := by
  have writes : Writes segmentation [single char] [Token.ofClusters kind [single char] 0]
      (Segment.continues kind) := of_whole read no_string
  rwa [token_eq] at writes

theorem leftParen : Writes segmentation [single '('] [Token.plain .leftParen] fun _ => false :=
  mark (by decide) (by decide) (by decide)

theorem rightParen : Writes segmentation [single ')'] [Token.plain .rightParen] fun _ => false :=
  mark (by decide) (by decide) (by decide)

theorem comma : Writes segmentation [single ','] [Token.plain .comma] fun _ => false :=
  mark (by decide) (by decide) (by decide)

theorem equal : Writes segmentation [single '='] [Token.plain .equal] (Segment.isChar '=') :=
  mark (by decide) (by decide) (by decide)

/-- A text put after layout. -/
theorem apart {char : Char} (plain : Text.IsPlain char)
    (blank : Segment.isBlank (single char) = true)
    (left : Writes segmentation text tokens continues)
    (right : Writes segmentation other others otherContinues)
    (ends : continues (single char) = false) :
    Writes segmentation (text ++ single char :: other) (tokens ++ others) otherContinues := by
  have apart := (left.append (layout plain blank) (.cons ends [])).append right fun _ _ => rfl
  rw [List.append_nil, List.append_assoc] at apart
  exact apart

theorem spaced (left : Writes segmentation text tokens continues)
    (right : Writes segmentation other others otherContinues)
    (ends : continues (single ' ') = false) :
    Writes segmentation (text ++ single ' ' :: other) (tokens ++ others) otherContinues :=
  apart (by decide) rfl left right ends

end Writes

/-- A text that writes the tokens of an expression: it can stand behind an operator, and in front of
whatever makes no longer name or number of its end. -/
structure WritesOperand (segmentation : Segmentation) (text : List Cluster) (tokens : List Token) :
    Prop where
  writes : Writes segmentation text tokens Segment.continuesOperand
  no_equal : Segment.Lacks (Segment.isChar '=') text

namespace WritesOperand

open Text.Cluster (single)

variable {segmentation : Segmentation} {text other : List Cluster} {tokens others : List Token}

theorem of_token {token : Token}
    (writes : Writes segmentation text [token] (Segment.continues token.kind))
    (operand : token.kind ∈ Segment.operandKinds) : WritesOperand segmentation text [token] where
  writes := writes.weaken (Segment.continuesOperand_of_continues operand)
  no_equal := by
    apply writes.lacks_equal
    rintro _ ⟨⟩
    constructor <;> intro same <;> rw [same] at operand <;> exact absurd operand (by decide)

/-- Tokens that are the same up to lines are written alike. -/
theorem congr (operand : WritesOperand segmentation text tokens)
    (same : tokens.map Token.withoutLine = others.map Token.withoutLine) :
    WritesOperand segmentation text others :=
  ⟨operand.writes.congr same, operand.no_equal⟩

variable [segmentation.IsLocal]

/-- An operator directly in front of its operand. -/
theorem prefixed {token : Token}
    (operator : Writes segmentation text [token] (Segment.continues token.kind))
    (operand : WritesOperand segmentation other others)
    (kind_mem : token.kind = .bang ∨ token.kind = .minus) :
    WritesOperand segmentation (text ++ other) (token :: others) where
  writes := by
    apply operator.append operand.writes
    rcases kind_mem with bang | minus
    · rw [bang]
      exact operand.no_equal
    · rw [minus]
      intro next _
      rfl
  no_equal := by
    refine Writes.lacks_append operator.bounded (operator.lacks_equal ?_) other
    rintro _ ⟨⟩
    rcases kind_mem with kind_eq | kind_eq <;> rw [kind_eq] <;> decide

/-- Two operands with a spaced token between them. -/
theorem joined {middle : List Cluster} {token : Token}
    (left : WritesOperand segmentation text tokens)
    (operator : Writes segmentation middle [token] (Segment.continues token.kind))
    (right : WritesOperand segmentation other others) :
    WritesOperand segmentation (text ++ single ' ' :: (middle ++ single ' ' :: other))
      (tokens ++ token :: others) where
  writes := left.writes.spaced (operator.spaced right.writes (Segment.continues_space _)) rfl
  no_equal := Writes.lacks_append left.writes.bounded left.no_equal _

/-- An operand between parentheses. -/
theorem grouped (inner : WritesOperand segmentation text tokens) :
    WritesOperand segmentation (single '(' :: (text ++ [single ')']))
      (Token.plain .leftParen :: (tokens ++ [Token.plain .rightParen])) where
  writes := by
    have closed := inner.writes.append Writes.rightParen (.cons rfl [])
    have opened := Writes.leftParen.append closed fun _ _ => rfl
    exact opened.weaken fun _ impossible => by cases impossible
  no_equal := by
    rintro next ⟨⟩
    rfl

/-- Two arguments with a comma and a space between them. -/
theorem listed (left : WritesOperand segmentation text tokens)
    (right : WritesOperand segmentation other others) :
    WritesOperand segmentation (text ++ single ',' :: single ' ' :: other)
      (tokens ++ Token.plain .comma :: others) where
  writes := by
    have spaced := Writes.comma.spaced right.writes rfl
    exact left.writes.append spaced (.cons rfl _)
  no_equal := Writes.lacks_append left.writes.bounded left.no_equal _

/-- A call without arguments. -/
theorem called (callee : WritesOperand segmentation text tokens) :
    WritesOperand segmentation (text ++ [single '(', single ')'])
      (tokens ++ [Token.plain .leftParen, Token.plain .rightParen]) where
  writes := by
    have marks : Writes segmentation [single '(', single ')']
        [Token.plain .leftParen, Token.plain .rightParen] fun _ => false :=
      Writes.leftParen.append Writes.rightParen fun _ _ => rfl
    have called := callee.writes.append marks (.cons rfl _)
    exact called.weaken fun _ impossible => by cases impossible
  no_equal := Writes.lacks_append callee.writes.bounded callee.no_equal _

/-- A call with arguments. -/
theorem calledWith (callee : WritesOperand segmentation text tokens)
    (arguments : WritesOperand segmentation other others) :
    WritesOperand segmentation (text ++ single '(' :: (other ++ [single ')']))
      (tokens ++ Token.plain .leftParen :: (others ++ [Token.plain .rightParen])) where
  writes := callee.writes.append arguments.grouped.writes (.cons rfl _)
  no_equal := Writes.lacks_append callee.writes.bounded callee.no_equal _

end WritesOperand

/-- A scanned token that is no name and no literal is, up to its line, what its kind says. -/
theorem Token.Scanned.withoutLine_eq {segmentation : Segmentation} [segmentation.IsLocal]
    {token : Token} (scanned : token.Scanned segmentation) {kind : Token.Kind} {spelling : String}
    (kind_eq : token.kind = kind) (spelled : kind.spelling? = some spelling)
    (no_literal : kind ∉ Grammar.literalKinds) :
    token.withoutLine = (Token.plain kind).withoutLine := by
  subst kind_eq
  have lexeme_eq := scanned.lexeme_eq spelled
  have literal_eq : token.literal = none := by
    rcases scanned.exists_measure with ⟨first, following, length, -, token_eq, -⟩
    rw [token_eq, Token.ofClusters]
    generalize token.kind = kind at no_literal
    cases kind <;> first | rfl | exact absurd (by decide) no_literal
  simp only [Token.withoutLine, Token.plain, lexeme_eq, literal_eq, spelled, Option.getD_some]

namespace Text.Cluster

theorem text_append (left right : List Cluster) :
    text (left ++ right) = text left ++ text right := by
  rw [text, charsOf_append, String.ofList_append]
  rfl

theorem text_mark (char : Char) (following : List Cluster) :
    text (single char :: following) = String.singleton char ++ text following :=
  Segment.text_single rfl following

theorem text_grouped (inner : List Cluster) :
    text (single '(' :: (inner ++ [single ')'])) = "(" ++ text inner ++ ")" := by
  rw [text_mark, text_append, String.append_assoc]
  rfl

theorem text_joined (left middle right : List Cluster) :
    text (left ++ single ' ' :: (middle ++ single ' ' :: right))
      = text left ++ " " ++ text middle ++ " " ++ text right := by
  rw [text_append, text_mark, text_append, text_mark]
  simp only [String.append_assoc]
  rfl

theorem text_listed (left right : List Cluster) :
    text (left ++ single ',' :: single ' ' :: right) = text left ++ ", " ++ text right := by
  rw [text_append, text_mark, text_mark, String.append_assoc]
  exact congrArg (text left ++ ·) (String.append_assoc ..).symm

theorem text_called (callee : List Cluster) :
    text (callee ++ [single '(', single ')']) = text callee ++ "(" ++ ")" := by
  rw [text_append, text_mark, text_mark, String.append_assoc]
  rfl

theorem text_calledWith (callee arguments : List Cluster) :
    text (callee ++ single '(' :: (arguments ++ [single ')']))
      = text callee ++ "(" ++ text arguments ++ ")" := by
  rw [text_append, text_grouped]
  simp only [String.append_assoc]

end Text.Cluster

namespace Expr

open Text.Cluster (single)

/-- Whether a literal can be written: it was scanned, and is no infinite number. -/
def Writable (segmentation : Segmentation) (value : Literal) : Prop :=
  value.Scanned segmentation ∧ value.isFinite = true

variable {segmentation : Segmentation} [segmentation.IsLocal]

mutual

/-- The source text of an expression that was scanned writes the tokens of the expression. -/
theorem exists_writes : ∀ tree : Expr,
    tree.All (Token.Scanned segmentation) (Writable segmentation) →
    ∃ text, Text.Cluster.text text = tree.source ∧ WritesOperand segmentation text tree.tokens
  | .literal value, writable => by
      rcases writable with ⟨⟨token, scanned, denotes⟩, finite⟩
      rcases scanned.exists_writes_literal denotes finite with ⟨text, text_eq, writes⟩
      have writes : Writes segmentation text [Token.ofLiteral value]
          (Segment.continues (Token.ofLiteral value).kind) := writes
      refine ⟨text, text_eq, .of_token writes ?_⟩
      exact List.mem_cons_of_mem _ (List.mem_cons_of_mem _ (Grammar.kind_mem_literalKinds value))
  | .reference name, scanned => by
      rcases scanned.exists_writes with ⟨text, text_eq, writes⟩
      exact ⟨text, text_eq, .of_token writes (by rw [name.kind_eq]; decide)⟩
  | .grouping inner, scanned => by
      rcases exists_writes inner scanned with ⟨text, text_eq, writes⟩
      refine ⟨_, ?_, writes.grouped⟩
      rw [Text.Cluster.text_grouped, text_eq, source]
  | .unary operator operand, scanned => by
      rcases exists_writes operand scanned.2 with ⟨text, text_eq, writes⟩
      rcases scanned.1.exists_writes with ⟨sign, sign_eq, sign_writes⟩
      have kind_mem : operator.token.kind = .bang ∨ operator.token.kind = .minus := by
        rw [operator.kind_eq]
        cases operator.meaning <;> decide
      refine ⟨_, ?_, writes.prefixed sign_writes kind_mem⟩
      rw [Text.Cluster.text_append, sign_eq, text_eq, source, Operator.lexeme]
  | .binary left operator right, scanned => by
      rcases exists_writes left scanned.1 with ⟨leftText, left_eq, left_writes⟩
      rcases exists_writes right scanned.2.2 with ⟨rightText, right_eq, right_writes⟩
      rcases scanned.2.1.exists_writes with ⟨middle, middle_eq, middle_writes⟩
      refine ⟨_, ?_, left_writes.joined middle_writes right_writes⟩
      rw [Text.Cluster.text_joined, left_eq, middle_eq, right_eq, source, Operator.lexeme]
  | .logical left operator right, scanned => by
      rcases exists_writes left scanned.1 with ⟨leftText, left_eq, left_writes⟩
      rcases exists_writes right scanned.2.2 with ⟨rightText, right_eq, right_writes⟩
      rcases scanned.2.1.exists_writes with ⟨middle, middle_eq, middle_writes⟩
      refine ⟨_, ?_, left_writes.joined middle_writes right_writes⟩
      rw [Text.Cluster.text_joined, left_eq, middle_eq, right_eq, source, Operator.lexeme]
  | .assign name value, scanned => by
      rcases exists_writes value scanned.2 with ⟨text, text_eq, writes⟩
      rcases scanned.1.exists_writes with ⟨nameText, name_eq, name_writes⟩
      have target : WritesOperand segmentation nameText [name.token] :=
        .of_token name_writes (by rw [name.kind_eq]; decide)
      refine ⟨_, ?_, target.joined Writes.equal writes⟩
      have sign_eq : name.token.lexeme ++ " " ++ Text.Cluster.text [single '='] ++ " "
          = name.token.lexeme ++ " = " := by
        simp only [String.append_assoc]
        rfl
      rw [Text.Cluster.text_joined, name_eq, text_eq, sign_eq, source, Token.OfKind.lexeme]
  | .call callee paren [], scanned => by
      rcases exists_writes callee scanned.1 with ⟨text, text_eq, writes⟩
      refine ⟨_, ?_, writes.called.congr ?_⟩
      · rw [Text.Cluster.text_called, text_eq, source, sources, String.intercalate_nil,
          String.append_empty]
      · have paren_eq := scanned.2.1.withoutLine_eq paren.kind_eq rfl (by decide)
        simp [tokens, argumentTokens, Grammar.separate, paren_eq]
  | .call callee paren (first :: others), scanned => by
      rcases exists_writes callee scanned.1 with ⟨text, text_eq, writes⟩
      rcases exists_writes_list (first :: others) scanned.2.2 (List.cons_ne_nil _ _) with
        ⟨otherText, other_eq, other_writes⟩
      refine ⟨_, ?_, (writes.calledWith other_writes).congr ?_⟩
      · rw [Text.Cluster.text_calledWith, text_eq, other_eq, source]
      · have paren_eq := scanned.2.1.withoutLine_eq paren.kind_eq rfl (by decide)
        simp [tokens, paren_eq]

/-- The source texts of arguments, with commas between them, write the tokens of the arguments. -/
theorem exists_writes_list : ∀ arguments : List Expr,
    ListAll (Token.Scanned segmentation) (Writable segmentation) arguments → arguments ≠ [] →
    ∃ text, Text.Cluster.text text = ", ".intercalate (sources arguments) ∧
      WritesOperand segmentation text (Grammar.separate (argumentTokens arguments))
  | [], _, nonempty => absurd rfl nonempty
  | [argument], scanned, _ => by
      rcases exists_writes argument scanned.1 with ⟨text, text_eq, writes⟩
      exact ⟨text, by rw [sources, sources, String.intercalate_singleton, text_eq], writes⟩
  | first :: second :: others, scanned, _ => by
      rcases exists_writes first scanned.1 with ⟨text, text_eq, writes⟩
      rcases exists_writes_list (second :: others) scanned.2 (List.cons_ne_nil _ _) with
        ⟨otherText, other_eq, other_writes⟩
      refine ⟨_, ?_, writes.listed other_writes⟩
      rw [Text.Cluster.text_listed, text_eq, other_eq]
      simp only [sources, String.intercalate_cons_cons]

end

end Expr

end Scriptlet
