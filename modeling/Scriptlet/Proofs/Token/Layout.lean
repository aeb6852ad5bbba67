import Scriptlet.Proofs.Grammar.SourceText
import Scriptlet.Proofs.Token.Scanned

/-!
# Layout between tokens

A source can be laid out anew: the texts of its tokens with one space between them. No token is
continued by a space, so with a local segmentation each of them is read again in its new place, and
nothing else is there to be read or reported. This holds of faulty sources too, whose faults are
left out.
-/

namespace Scriptlet

open Text (Cluster Segmentation)

/-- The texts of the tokens of a source, with one space between them. -/
def relaid (segmentation : Segmentation) (source : String) : String :=
  " ".intercalate ((Scan.ofString segmentation source).tokens.body.map Token.lexeme)

variable {segmentation : Segmentation} [segmentation.IsLocal]

/-- Scanned tokens are written by their texts with one space between them. -/
theorem exists_writes_spaced {token : Token} {tokens : List Token}
    (scanned : ∀ other ∈ token :: tokens, other.Scanned segmentation) :
    ∃ text continues, Cluster.text text = " ".intercalate ((token :: tokens).map Token.lexeme) ∧
      Writes segmentation text (token :: tokens) continues := by
  induction tokens generalizing token with
  | nil =>
      obtain ⟨text, text_eq, writes⟩ := (scanned token List.mem_cons_self).exists_writes
      exact ⟨text, _, by simp [text_eq, String.intercalate_singleton], writes⟩
  | cons next tokens ih =>
      rw [List.forall_mem_cons] at scanned
      obtain ⟨text, text_eq, writes⟩ := scanned.1.exists_writes
      obtain ⟨later, continues, later_eq, later_writes⟩ := ih scanned.2
      refine ⟨text ++ .single ' ' :: later, continues, ?_,
        writes.spaced later_writes (Segment.continues_space token.kind)⟩
      rw [Cluster.text_append, Cluster.text_mark, text_eq, later_eq, ← String.append_assoc]
      simp only [List.map_cons, String.intercalate_cons_cons]
      rfl

namespace Scan

/-- The end of a source is the same token up to its line. -/
theorem last_ofSegments (line : Nat) (segments : List Segment) :
    (ofSegments line segments).tokens.last.withoutLine = Token.atEnd 0 := by
  induction segments generalizing line with
  | nil => rfl
  | cons segment segments ih =>
      rcases segment with ⟨piece, text⟩
      cases piece <;> exact ih _

variable (segmentation)

/-- A source that is laid out anew has the same tokens up to lines, and nothing in it is
reported. -/
theorem ofString_relaid (source : String) :
    (ofString segmentation (relaid segmentation source)).errors = [] ∧
      (ofString segmentation (relaid segmentation source)).tokens.body.map Token.withoutLine
        = (ofString segmentation source).tokens.body.map Token.withoutLine := by
  have scanned : ∀ token ∈ (ofString segmentation source).tokens.body,
      token.Scanned segmentation :=
    fun token token_mem => ⟨source, token_mem⟩
  rw [relaid]
  cases body_eq : (ofString segmentation source).tokens.body with
  | nil =>
      rw [List.map_nil, String.intercalate_nil, ofString_empty]
      exact ⟨rfl, rfl⟩
  | cons token tokens =>
      rw [body_eq] at scanned
      obtain ⟨text, continues, text_eq, writes⟩ := exists_writes_spaced scanned
      rw [← text_eq]
      exact writes.scan

end Scan

end Scriptlet
