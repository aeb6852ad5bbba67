import Scriptlet.Proofs.Grammar.Kinds
import Scriptlet.Proofs.Parser.Program

/-!
# Where the first failure is

Apart from faults that are only reported, a sequence of tokens is read without a failure just if it
is a program. Otherwise the first failure is at the first token with which the tokens up to there
can no longer become a program.
-/

namespace Scriptlet.Parser

open Grammar

/-- Tokens with which some program starts that is followed by the end of input. -/
def Viable (start : List Token) : Prop :=
  ∃ body program last, DerivesProgram relaxed body program ∧ last.kind = .endOfInput ∧
    start <+: body ++ [last]

theorem Viable.mono {start longer : List Token} (viable : Viable longer)
    (shorter : start <+: longer) : Viable start := by
  obtain ⟨body, program, last, derives, last_kind, longer_prefix⟩ := viable
  exact ⟨body, program, last, derives, last_kind, shorter.trans longer_prefix⟩

theorem not_firstFault_of_derives {tokens : List Token} {statements : List Stmt}
    (derives : DerivesProgram relaxed tokens statements) {error : SyntaxError} :
    ¬FirstFault relaxed program (.start tokens) error := by
  obtain ⟨after, run, errors_eq⟩ := exists_run_program tokens
  apply not_firstFault run
  rw [errors_eq]
  exact tolerated_of_derivesProgram not_skips_relaxed derives

theorem firstFault_of_find? {tokens : List Token} {error : SyntaxError}
    (found : (parseProgram tokens).2.find? (·.cause.isFatal) = some error) :
    FirstFault relaxed program (.start tokens) error := by
  obtain ⟨fatal, earlier, later, errors_eq, harmless⟩ := List.find?_eq_some_iff_append.mp found
  refine .reported ((stop_program_errors tokens).trans errors_eq) ?_ ?_
  · intro other other_mem
    simpa [relaxed] using harmless other other_mem
  · intro tolerated
    rw [relaxed, fatal] at tolerated
    cases tolerated

/-- Declarations that are unfinished can go on to a program. -/
theorem viable_of_unfinished {read : List Token}
    (unfinished : Unfinished (Language.parts relaxed ⟨false, false⟩) read) : Viable read := by
  rcases unfinished with ⟨next, later, _, _, parts, tokens_eq, _, derive, skips⟩
  exact ⟨_, _, .atEnd 1, ⟨parts, derive, skips, tokens_eq, rfl⟩, rfl, by simp⟩

/-- The first fault in tokens is at the end of the longest beginning that some program has. -/
theorem FirstFault.exists_place {tokens : Tokens} (last_kind : tokens.last.kind = .endOfInput)
    (one_end : ∀ token ∈ tokens.body, token.kind ≠ .endOfInput) {error : SyntaxError}
    (fault : FirstFault relaxed program (.start tokens.body) error) :
    ∃ read token later, tokens.toList = read ++ token :: later ∧
      error.tokenOr tokens.last = token ∧ Viable read ∧ ¬Viable (read ++ [token]) := by
  obtain ⟨read, left, stalls, unfinished⟩ :=
    (recognizes_program lax_relaxed).foresees.stalls (Nat.lt_succ_self _)
      (by simp [State.start]) fault
  have body_eq : tokens.body = read ++ left := stalls.rest_eq
  have viable := viable_of_unfinished unfinished
  cases left with
  | nil =>
      rw [List.append_nil] at body_eq
      refine ⟨read, tokens.last, [], by rw [Tokens.toList, body_eq], ?_, viable, ?_⟩
      · rw [SyntaxError.tokenOr, stalls.token_eq]
        rfl
      rintro ⟨body, statements, last, derives, _, start_prefix⟩
      rcases List.prefix_concat_iff.mp start_prefix with whole | inside
      · rw [← (List.append_inj' whole rfl).1, ← body_eq] at derives
        exact not_firstFault_of_derives derives fault
      · have last_mem : tokens.last ∈ body := inside.subset (by simp)
        exact derives.kind_ne_endOfInput not_skips_relaxed _ last_mem last_kind
  | cons token left =>
      refine ⟨read, token, left ++ [tokens.last], by simp [Tokens.toList, body_eq], ?_, viable, ?_⟩
      · rw [SyntaxError.tokenOr, stalls.token_eq]
        rfl
      rintro ⟨body, statements, last, derives, end_kind, start_prefix⟩
      rcases List.prefix_concat_iff.mp start_prefix with whole | ⟨right, inside⟩
      · have token_eq : token = last := by simpa using (List.append_inj' whole rfl).2
        exact one_end token (by simp [body_eq]) (token_eq ▸ end_kind)
      · have twin : State.Twin read (token :: left) (token :: right) (.start tokens.body)
            (.start body) :=
          ⟨stalls.rest_eq, by simp [State.start, ← inside], rfl, rfl⟩
        exact not_firstFault_of_derives derives (stalls.again twin (by simp [State.start]) rfl)

/-- Tokens are read without a failure just if they are a program, up to faults that are only
reported. Otherwise the first failure is at the first token with which the tokens up to there are
no beginning of a program. -/
theorem first_failure_exact (tokens : Tokens) (last_kind : tokens.last.kind = .endOfInput)
    (one_end : ∀ token ∈ tokens.body, token.kind ≠ .endOfInput) :
    ((∀ error ∈ (parseProgram tokens.body).2, error.cause.isFatal = false) ↔
      ∃ statements, DerivesProgram relaxed tokens.body statements) ∧
    ∀ error, (parseProgram tokens.body).2.find? (·.cause.isFatal) = some error →
      ∃ read token later, tokens.toList = read ++ token :: later ∧
        error.tokenOr tokens.last = token ∧
        ∀ start, start <+: tokens.toList → (Viable start ↔ start.length ≤ read.length) := by
  refine ⟨⟨fun harmless => ⟨_, derivesProgram_parseProgram harmless⟩, ?_⟩, ?_⟩
  · rintro ⟨statements, derives⟩
    exact tolerated_of_derivesProgram not_skips_relaxed derives
  intro error found
  obtain ⟨read, token, later, tokens_eq, token_eq, viable, dead⟩ :=
    (firstFault_of_find? found).exists_place last_kind one_end
  refine ⟨read, token, later, tokens_eq, token_eq, ?_⟩
  intro start start_prefix
  have read_prefix : read <+: tokens.toList := ⟨token :: later, tokens_eq.symm⟩
  have longer_prefix : read ++ [token] <+: tokens.toList := ⟨later, by simp [tokens_eq]⟩
  constructor
  · intro start_viable
    rcases Nat.lt_or_ge read.length start.length with longer | shorter
    · have beyond : read ++ [token] <+: start :=
        List.prefix_of_prefix_length_le longer_prefix start_prefix (by simp; omega)
      exact absurd (start_viable.mono beyond) dead
    · exact shorter
  · intro shorter
    exact viable.mono (List.prefix_of_prefix_length_le start_prefix read_prefix shorter)

/-- A printed name and a number behind it, with no semicolon between them. -/
def unendedPrint : Tokens where
  body := [(sample .printWord).token, (sample .identifier).token, (sample .number).token,
    (sample .semicolon).token]
  last := .atEnd 1

/-- The number is what no program has there. -/
theorem first_failure_exact_unended :
    unendedPrint.last.kind = .endOfInput ∧
    (∀ token ∈ unendedPrint.body, token.kind ≠ .endOfInput) ∧
    (¬∃ statements, DerivesProgram relaxed unendedPrint.body statements) ∧
    ∀ start, start <+: unendedPrint.toList → (Viable start ↔ start.length ≤ 2) := by
  have last_kind : unendedPrint.last.kind = .endOfInput := rfl
  have one_end : ∀ token ∈ unendedPrint.body, token.kind ≠ .endOfInput := by decide
  have errors_eq : (parseProgram unendedPrint.body).2 =
      [⟨.missingSymbol .semicolon .afterPrintedValue, some (sample .number).token⟩] := rfl
  obtain ⟨harmless_iff, place⟩ := first_failure_exact unendedPrint last_kind one_end
  refine ⟨last_kind, one_end, ?_, ?_⟩
  · intro program
    have harmless := harmless_iff.mpr program _ (by rw [errors_eq]; exact List.mem_singleton_self _)
    cases harmless
  · obtain ⟨read, token, later, tokens_eq, token_eq, viable_iff⟩ := place _ (by rw [errors_eq]; rfl)
    have token_kind : token.kind = .number := token_eq ▸ rfl
    have kind_at : unendedPrint.toList[read.length]?.map Token.kind = some .number := by
      simp [tokens_eq, token_kind]
    suffices length_eq : read.length = 2 from length_eq ▸ viable_iff
    match read.length, kind_at with
    | 2, _ => rfl
    | 0, other | 1, other | 3, other | 4, other | _ + 5, other => cases other

end Scriptlet.Parser
