import Scriptlet.Proofs.Grammar.Lines
import Scriptlet.Proofs.Grammar.SourceText
import Scriptlet.Proofs.Parser.ExpressionAcceptance
import Scriptlet.Proofs.Parser.ExpressionReading
import Scriptlet.Proofs.Text.Cut

/-!
# Expressions read from their source text

Whatever expression is read from a source, with or without faults, its source text is scanned
without fault, and the same expression is read from it up to the end. This holds for every local
segmentation.
-/

namespace Scriptlet.Parser

open Text (Segmentation)
open Grammar

/-- An expression that was read is read again from its source text, whatever was reported before,
if its numbers are finite. -/
theorem expression_source {segmentation : Segmentation} [isLocal : segmentation.IsLocal]
    {source : String} {tree : Expr} {after : State}
    (read : expression (.start (Scan.ofString segmentation source).tokens.body) = .ok tree after)
    (finite : ∀ value ∈ tree.literals, value.isFinite = true) :
    (Scan.ofString segmentation tree.source).errors = [] ∧
      ∃ again final,
        expression (.start (Scan.ofString segmentation tree.source).tokens.body) = .ok again final ∧
          again.withoutLines = tree.withoutLines ∧ final.rest = [] := by
  -- Every fault is tolerated when the tree is read, so that there is a derivation in any case.
  have reads : ReadsCategory (fun _ => True) expression .assignment := reads_expression
  rcases reads.described_of_ok read fun _ _ => trivial with ⟨tokens, rest_eq, derives⟩
  have scanned : ∀ token ∈ tokens, token.Scanned segmentation := by
    intro token token_mem
    refine ⟨source, ?_⟩
    change (Scan.ofString segmentation source).tokens.body = tokens ++ after.rest at rest_eq
    rw [rest_eq]
    exact List.mem_append_left _ token_mem
  have parts : tree.All (Token.Scanned segmentation) (Literal.Scanned segmentation) :=
    derives.all scanned (fun token token_mem => (scanned token token_mem).literal)
      (by simp [Category.left?])
  rcases Expr.exists_writes tree (parts.and_literals tree finite) with ⟨text, text_eq, writes⟩
  rcases writes.writes.scan with ⟨silent, same⟩
  rw [text_eq] at silent same
  rcases derives.derives_tokens.transport (.whole rfl) same with ⟨again, derives_again, again_eq⟩
  have ends : Category.assignment.EndsBefore [] := by
    intro token token_mem
    cases token_mem
  have start_eq : (Parser.State.start (Scan.ofString segmentation tree.source).tokens.body).rest
      = (Scan.ofString segmentation tree.source).tokens.body ++ [] :=
    (List.append_nil _).symm
  rcases accepts_expression derives_again ends _ start_eq rfl with
    ⟨final, read_again, reaches⟩
  exact ⟨silent, again, final, read_again, again_eq, reaches.rest_eq⟩

/-- The assignment in this source is reported and left out, and reading stops at a parenthesis that
closes nothing. -/
theorem expression_source_misassigned :
    ∃ tree after,
      expression (.start (Scan.ofString .graphemes
          "-f(1.50)(\"é\", !nil) == (a = 0.5) = 3) /* b").tokens.body) = .ok tree after ∧
      (∀ value ∈ tree.literals, value.isFinite = true) ∧
      (Scan.ofString .graphemes tree.source).errors = [] ∧
      ∃ again final,
        expression (.start (Scan.ofString .graphemes tree.source).tokens.body) = .ok again final ∧
          again.withoutLines = tree.withoutLines ∧ final.rest = [] := by
  have finite : (expression.run' (.start (Scan.ofString .graphemes
      "-f(1.50)(\"é\", !nil) == (a = 0.5) = 3) /* b").tokens.body)).any
        (fun tree => tree.literals.all Literal.isFinite) = true := by
    decide +kernel
  cases read : expression (.start (Scan.ofString .graphemes
      "-f(1.50)(\"é\", !nil) == (a = 0.5) = 3) /* b").tokens.body) with
  | ok tree after =>
      rw [EStateM.run', EStateM.run, read] at finite
      have finite := List.all_eq_true.mp finite
      exact ⟨tree, after, rfl, finite, expression_source read finite⟩
  | error error after =>
      rw [EStateM.run', EStateM.run, read] at finite
      cases finite

end Scriptlet.Parser
