import Scriptlet.Outline
import Scriptlet.Proofs.Grammar.SourceText
import Scriptlet.Proofs.Token.LineEnd

/-!
# Outlines told apart by their texts

The text of an outline can be scanned with any local segmentation: its words are tokens, and its
lists stand between parentheses. If no word of two outlines is a parenthesis, they have the same
text only if they are the same, and outlines on lines of their own are told apart as well.
-/

namespace Scriptlet

open Text (Cluster Segmentation)

namespace Segment

/-- Whether a cluster after a word of an outline would make another token of the end of it. -/
def continuesWord (next : Cluster) : Bool :=
  !(isBlank next || isChar ')' next)

theorem continuesWord_of_continues {kind : Token.Kind} (next : Cluster)
    (continued : continues kind next = true) : continuesWord next = true := by
  have no_blank : isBlank next = false := by
    cases blank : isBlank next with
    | false => rfl
    | true => rw [← continued, continues_of_stops (stops_of_isBlank blank)]
  have no_paren : isChar ')' next = false := by
    rw [isChar, decide_eq_false_iff_not]
    rintro rfl
    revert continued
    cases kind <;> decide
  rw [continuesWord, no_blank, no_paren]
  rfl

end Segment

/-- The text of a scanned token is scanned as this token. -/
theorem Token.Scanned.scan_lexeme {segmentation : Segmentation} [segmentation.IsLocal]
    {token : Token} (scanned : token.Scanned segmentation) :
    (Scan.ofString segmentation token.lexeme).tokens.body.map Token.withoutLine
      = [token.withoutLine] := by
  rcases scanned.exists_writes with ⟨text, text_eq, writes⟩
  rw [← text_eq]
  exact writes.scan.2

namespace Outline

/-- Outlines whose words are scanned tokens other than parentheses. -/
inductive Worded (segmentation : Segmentation) : Outline → Prop where
  | atom {token : Token} (scanned : token.Scanned segmentation)
      (no_left : token.kind ≠ .leftParen) (no_right : token.kind ≠ .rightParen) :
      Worded segmentation (.atom token.lexeme)
  | list {items : List Outline} (items_worded : ∀ item ∈ items, Worded segmentation item) :
      Worded segmentation (.list items)

variable {segmentation : Segmentation}

mutual

/-- What is scanned from the text of an outline, without lines. -/
def tokens (segmentation : Segmentation) : Outline → List Token
  | .atom text => (Scan.ofString segmentation text).tokens.body.map Token.withoutLine
  | .list items =>
      Token.plain .leftParen :: (listTokens segmentation items ++ [Token.plain .rightParen])

/-- What is scanned from the texts of outlines, one after the other. -/
def listTokens (segmentation : Segmentation) : List Outline → List Token
  | [] => []
  | item :: others => item.tokens segmentation ++ listTokens segmentation others

end

mutual

theorem tokens_withoutLine : ∀ outline : Outline,
    (outline.tokens segmentation).map Token.withoutLine = outline.tokens segmentation
  | .atom text => by
      rw [tokens, List.map_map]
      rfl
  | .list items => by
      rw [tokens, List.map_cons, List.map_append, listTokens_withoutLine items]
      rfl

theorem listTokens_withoutLine : ∀ items : List Outline,
    (listTokens segmentation items).map Token.withoutLine = listTokens segmentation items
  | [] => rfl
  | item :: others => by
      rw [listTokens, List.map_append, tokens_withoutLine item, listTokens_withoutLine others]

end

theorem texts_eq_map (items : List Outline) : texts items = items.map text := by
  induction items with
  | nil => rfl
  | cons item others ih => rw [texts, ih, List.map_cons]

variable [segmentation.IsLocal]

namespace Worded

/-- Items with layout between them write their tokens if each of them does. -/
theorem exists_writes_items (separator : Char) (plain : Text.IsPlain separator)
    (blank : Segment.isBlank (.single separator) = true) : ∀ {items : List Outline}, items ≠ [] →
    (∀ item ∈ items, ∃ text, Cluster.text text = item.text ∧
      Writes segmentation text (item.tokens segmentation) Segment.continuesWord) →
    ∃ text, Cluster.text text = (String.singleton separator).intercalate (items.map Outline.text) ∧
      Writes segmentation text (listTokens segmentation items) Segment.continuesWord
  | [], nonempty, _ => absurd rfl nonempty
  | [item], _, items_write => by
      rcases items_write item List.mem_cons_self with ⟨text, text_eq, writes⟩
      refine ⟨text, by rw [List.map_cons, List.map_nil, String.intercalate_singleton, text_eq], ?_⟩
      rwa [listTokens, listTokens, List.append_nil]
  | item :: second :: others, _, items_write => by
      rcases items_write item List.mem_cons_self with ⟨text, text_eq, writes⟩
      rcases exists_writes_items separator plain blank (List.cons_ne_nil second others)
        (fun other other_mem => items_write other (List.mem_cons_of_mem item other_mem)) with
        ⟨otherText, other_eq, other_writes⟩
      have ends : Segment.continuesWord (.single separator) = false := by
        rw [Segment.continuesWord, blank]
        rfl
      refine ⟨_, ?_, Writes.apart plain blank writes other_writes ends⟩
      rw [Cluster.text_append, Cluster.text_mark, text_eq, other_eq]
      simp only [List.map_cons, String.intercalate_cons_cons, String.append_assoc]

/-- The text of an outline writes its tokens. -/
theorem exists_writes {outline : Outline} (worded : outline.Worded segmentation) :
    ∃ text, Cluster.text text = outline.text ∧
      Writes segmentation text (outline.tokens segmentation) Segment.continuesWord := by
  induction worded with
  | @atom token scanned _ _ =>
      rcases scanned.exists_writes with ⟨text, text_eq, writes⟩
      refine ⟨text, text_eq, (writes.weaken Segment.continuesWord_of_continues).congr ?_⟩
      rw [tokens, scanned.scan_lexeme]
      rfl
  | @list items _ ih =>
      rcases items with - | ⟨item, others⟩
      · have marks : Writes segmentation _ _ _ :=
          Writes.leftParen.append Writes.rightParen fun _ _ => rfl
        exact ⟨_, rfl, marks.weaken fun _ impossible => by cases impossible⟩
      · rcases exists_writes_items ' ' (by decide) rfl (List.cons_ne_nil item others) ih with
          ⟨text, text_eq, writes⟩
        have closed := writes.append Writes.rightParen (.cons rfl [])
        have opened := Writes.leftParen.append closed fun _ _ => rfl
        refine ⟨_, ?_, opened.weaken fun _ impossible => by cases impossible⟩
        rw [List.singleton_append, Cluster.text_grouped, text_eq, Outline.text, texts_eq_map]
        rfl

theorem exists_tokens {outline : Outline} (worded : outline.Worded segmentation) :
    ∃ first later, outline.tokens segmentation = first :: later ∧ first.kind ≠ .rightParen := by
  cases worded with
  | @atom token scanned _ no_right =>
      exact ⟨token.withoutLine, [], by rw [tokens, scanned.scan_lexeme], no_right⟩
  | list => exact ⟨_, _, by rw [tokens], Token.Kind.noConfusion⟩

/-- Items up to a closing parenthesis are told apart by their tokens if each of them is. -/
theorem items_eq {items others : List Outline} {later otherLater : List Token}
    (determined : ∀ item ∈ items, ∀ {other : Outline} {later otherLater : List Token},
      Worded segmentation other →
      item.tokens segmentation ++ later = other.tokens segmentation ++ otherLater →
        item = other ∧ later = otherLater)
    (items_worded : ∀ item ∈ items, Worded segmentation item)
    (others_worded : ∀ other ∈ others, Worded segmentation other)
    (same : listTokens segmentation items ++ Token.plain .rightParen :: later
      = listTokens segmentation others ++ Token.plain .rightParen :: otherLater) :
    items = others ∧ later = otherLater := by
  have unclosed {item : Outline} (item_worded : Worded segmentation item) {more rest : List Token} :
      item.tokens segmentation ++ more ≠ Token.plain .rightParen :: rest := by
    rcases item_worded.exists_tokens with ⟨first, tail, tokens_eq, no_right⟩
    rw [tokens_eq]
    intro closed
    exact no_right (congrArg Token.kind (List.cons.inj closed).1)
  induction items generalizing others with
  | nil =>
      cases others with
      | nil => exact ⟨rfl, (List.cons.inj same).2⟩
      | cons other others =>
          rw [listTokens, listTokens, List.append_assoc] at same
          exact absurd same.symm (unclosed (others_worded other List.mem_cons_self))
  | cons item items ih =>
      rw [List.forall_mem_cons] at determined items_worded
      cases others with
      | nil =>
          rw [listTokens, listTokens, List.append_assoc] at same
          exact absurd same (unclosed items_worded.1)
      | cons other others =>
          rw [List.forall_mem_cons] at others_worded
          rw [listTokens, listTokens, List.append_assoc, List.append_assoc] at same
          rcases determined.1 others_worded.1 same with ⟨rfl, items_same⟩
          rcases ih determined.2 items_worded.2 others_worded.2 items_same with ⟨rfl, later_eq⟩
          exact ⟨rfl, later_eq⟩

/-- No tokens are those of two outlines, or those of one followed by something and those of
another. -/
theorem eq_of_tokens_append {left right : Outline} {later otherLater : List Token}
    (left_worded : left.Worded segmentation) (right_worded : right.Worded segmentation)
    (same : left.tokens segmentation ++ later = right.tokens segmentation ++ otherLater) :
    left = right ∧ later = otherLater := by
  induction left_worded generalizing right later otherLater with
  | atom scanned no_left _ =>
      rw [tokens, scanned.scan_lexeme] at same
      cases right_worded with
      | atom other_scanned _ _ =>
          rw [tokens, other_scanned.scan_lexeme] at same
          rcases List.cons.inj same with ⟨token_eq, later_eq⟩
          exact ⟨congrArg (fun token => Outline.atom token.lexeme) token_eq, later_eq⟩
      | list =>
          rw [tokens] at same
          exact absurd (congrArg Token.kind (List.cons.inj same).1) no_left
  | list items_worded ih =>
      rw [tokens] at same
      cases right_worded with
      | atom other_scanned no_left _ =>
          rw [tokens, other_scanned.scan_lexeme] at same
          exact absurd (congrArg Token.kind (List.cons.inj same).1).symm no_left
      | list others_worded =>
          rw [tokens, List.cons_append, List.cons_append, List.append_assoc,
            List.append_assoc] at same
          rcases items_eq (fun item item_mem => ih item item_mem) items_worded others_worded
            (List.cons.inj same).2 with ⟨rfl, later_eq⟩
          exact ⟨rfl, later_eq⟩

/-- Outlines on lines of their own are scanned one after the other. -/
theorem scan_lines {items : List Outline}
    (items_worded : ∀ item ∈ items, Worded segmentation item) :
    (Scan.ofString segmentation ("\n".intercalate (items.map text))).tokens.body.map
      Token.withoutLine = listTokens segmentation items := by
  by_cases empty : items = []
  · subst empty
    rw [List.map_nil, String.intercalate_nil, Scan.ofString_empty]
    rfl
  · rcases exists_writes_items '\n' (by decide) rfl empty
      (fun item item_mem => (items_worded item item_mem).exists_writes) with
      ⟨text, text_eq, writes⟩
    have same := writes.scan.2
    rw [text_eq, listTokens_withoutLine] at same
    exact same

/-- Outlines on lines of their own are told apart by the text that they make together. -/
theorem lines_injective {left right : List Outline}
    (left_worded : ∀ item ∈ left, Worded segmentation item)
    (right_worded : ∀ item ∈ right, Worded segmentation item)
    (same : "\n".intercalate (left.map text) = "\n".intercalate (right.map text)) :
    left = right := by
  have tokens_eq : listTokens segmentation left = listTokens segmentation right := by
    rw [← scan_lines left_worded, ← scan_lines right_worded, same]
  exact (items_eq (fun item item_mem => (left_worded item item_mem).eq_of_tokens_append)
    left_worded right_worded (congrArg (· ++ [Token.plain .rightParen]) tokens_eq)).1

end Worded

end Outline

end Scriptlet
