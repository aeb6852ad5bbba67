import Scriptlet.Proofs.Grammar.WriteBack
import Scriptlet.Proofs.Parser.StatementAcceptance
import Scriptlet.Text.Grapheme
import Scriptlet.Token.Scan

/-!
# The parser and its grammar

Reading a program reports no error exactly for the token sequences that the grammar derives, and
then gives the derived tree. Derivations are therefore unique in their trees.
-/

namespace Scriptlet.Parser

open Grammar

variable {tokens : List Token}

theorem derivesProgram_of_no_error (silent : (parseProgram tokens).2 = []) :
    DerivesProgram strict tokens (parseProgram tokens).1 := by
  apply derivesProgram_parseProgram
  simp [silent]

/-- Token sequences whose literal tokens carry their values are accepted exactly if they are
programs. The statements read are those of every derivation, and written out they give the input. -/
theorem parseProgram_exact (tokens : List Token) (fits : ∀ token ∈ tokens, token.LiteralFits) :
    ((parseProgram tokens).2 = [] ↔ ∃ program, DerivesProgram strict tokens program) ∧
    ∀ program, DerivesProgram strict tokens program →
      (parseProgram tokens).1 = program ∧
        (Stmt.programTokens program).map Token.terminal = tokens.map Token.terminal := by
  have whole : ¬ Skips strict := fun ⟨_, _, impossible⟩ => impossible
  refine ⟨⟨?_, ?_⟩, ?_⟩
  · intro silent
    exact ⟨_, derivesProgram_of_no_error silent⟩
  · rintro ⟨program, derives⟩
    rw [parseProgram_eq derives]
  · intro program derives
    rw [parseProgram_eq derives]
    exact ⟨rfl, derives.terminals_eq id whole fits⟩

/-- The `else` of this program could be taken for that of either `if`. -/
theorem parseProgram_exact_else :
    ∃ program,
      DerivesProgram strict
        (Scan.ofString .graphemes "if (a) if (b) print 1; else x = -2 * 3;").tokens.body program ∧
      (Stmt.programTokens program).map Token.terminal =
        (Scan.ofString .graphemes "if (a) if (b) print 1; else x = -2 * 3;").tokens.body.map
          Token.terminal := by
  have exact_ := parseProgram_exact
    (Scan.ofString .graphemes "if (a) if (b) print 1; else x = -2 * 3;").tokens.body
    (by decide +kernel)
  rcases exact_.1.mp (by decide +kernel) with ⟨program, derives⟩
  exact ⟨program, derives, (exact_.2 program derives).2⟩

end Scriptlet.Parser
