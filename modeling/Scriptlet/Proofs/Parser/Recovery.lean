import Scriptlet.Proofs.Parser.StatementPrediction

/-!
# What recovery drops

Where a declaration fails, the token at the fault is dropped, whatever it is, and then the tokens up
to the end of a statement or the start of another. So a statement is lost if the fault shows at the
word that it starts with, as it does where the semicolon before it is missing. No other start of a
statement is dropped.

Declarations in blocks are read by the same reader (`declaration_eq`), so this is about them too.
-/

namespace Scriptlet.Parser

open Grammar

/-- How a recovery divides the tokens from a fault on. -/
structure Discarded (dropped left : List Token) : Prop where
  advances : dropped = [] → left = []
  unopened : ∀ token ∈ dropped.tail, opensStatement token.kind = false
  unended : ∀ token ∈ dropped.dropLast, token.kind ≠ .semicolon
  stops : left = [] ∨ (∃ last ∈ dropped.getLast?, last.kind = .semicolon) ∨
    ∃ next ∈ left.head?, opensStatement next.kind = true

theorem Discarded.singleton {token : Token} {left : List Token}
    (stops : token.kind = .semicolon ∨ ∃ next ∈ left.head?, opensStatement next.kind = true) :
    Discarded [token] left where
  advances impossible := absurd impossible (List.cons_ne_nil token [])
  unopened := by simp
  unended := by simp
  stops := .inr (stops.imp_left fun ends => ⟨token, rfl, ends⟩)

theorem Discarded.cons {token : Token} {dropped left : List Token}
    (later : Discarded dropped left) (unended : token.kind ≠ .semicolon)
    (unopened : ∀ next ∈ (dropped ++ left).head?, opensStatement next.kind = false) :
    Discarded (token :: dropped) left := by
  cases dropped with
  | nil =>
      obtain rfl := later.advances rfl
      exact ⟨fun _ => rfl, by simp, by simp, .inl rfl⟩
  | cons next dropped =>
      refine ⟨nofun, ?_, ?_, ?_⟩
      · exact List.forall_mem_cons.mpr ⟨unopened next rfl, later.unopened⟩
      · rw [List.dropLast_cons_cons]
        exact List.forall_mem_cons.mpr ⟨unended, later.unended⟩
      · rw [List.getLast?_cons_cons]
        exact later.stops

theorem exists_discarded (tokens : List Token) :
    ∃ dropped, tokens = dropped ++ resume tokens ∧ Discarded dropped (resume tokens) := by
  induction tokens with
  | nil => exact ⟨[], rfl, fun _ => rfl, by simp, by simp, .inl rfl⟩
  | cons token rest ih =>
      rw [resume]
      by_cases ends : token.kind = .semicolon
      · rw [if_pos ends]
        exact ⟨[token], rfl, .singleton (.inl ends)⟩
      rw [if_neg ends]
      by_cases opens : rest.head?.any (opensStatement ·.kind)
      · rw [if_pos opens]
        exact ⟨[token], rfl, .singleton (.inr ((Option.any_eq_true _ _).mp opens))⟩
      · rw [if_neg opens]
        obtain ⟨dropped, rest_eq, later⟩ := ih
        refine ⟨token :: dropped, congrArg (token :: ·) rest_eq, later.cons ends ?_⟩
        rw [← rest_eq]
        exact (Option.any_eq_false _ _).mp (Bool.not_eq_true _ ▸ opens)

/-- No start of a statement is dropped, unless the declaration that failed starts with it. -/
def KeepsStatements (read dropped : List Token) : Prop :=
  ∀ first token later, dropped = first ++ token :: later → opensStatement token.kind = true →
    read ++ first = []

theorem Discarded.keepsStatements_iff {dropped left : List Token}
    (discarded : Discarded dropped left) (read : List Token) :
    KeepsStatements read dropped ↔
      ∀ token ∈ dropped.head?, opensStatement token.kind = true → read = [] := by
  constructor
  · intro keeps token token_mem opens
    obtain ⟨later, dropped_eq⟩ := List.head?_eq_some_iff.mp token_mem
    exact (List.append_eq_nil_iff.mp (keeps [] token later dropped_eq opens)).1
  · rintro unread first token later rfl opens
    cases first with
    | nil => exact List.append_eq_nil_iff.mpr ⟨unread token rfl opens, rfl⟩
    | cons other first =>
        have unopened := discarded.unopened token (by simp)
        rw [opens] at unopened
        cases unopened

/-- Recovery drops the token at the fault and goes on up to the end of a statement or the start of
another. So it keeps all statements just if no other statement starts at the fault. -/
theorem recovery_exact {before after : State} {error : SyntaxError}
    (run : declaration before = .error error after) :
    ∃ read dropped left, before.rest = read ++ (dropped ++ left) ∧
      recovering declaration before = .ok none (after.past left [error]) ∧
      error.token = dropped.head? ∧ Discarded dropped left ∧
      (KeepsStatements read dropped ↔
        ∀ token ∈ error.token, opensStatement token.kind = true → read = []) := by
  have foresees {room : Nat} := (@recognizes_declaration _ room lax_everything).foresees
  obtain ⟨read, before_eq⟩ := (stop_of_error run ▸ (@foresees 0).leads before).rest_suffix
  obtain ⟨dropped, after_eq, discarded⟩ := exists_discarded after.rest
  have token_eq : error.token = dropped.head? := by
    rw [foresees.located (Nat.lt_succ_self _) run, after_eq]
    cases dropped with
    | nil => rw [discarded.advances rfl]; rfl
    | cons token dropped => rfl
  refine ⟨read, dropped, resume after.rest, ?_, recovering_of_error run, token_eq, discarded, ?_⟩
  · rw [← after_eq, before_eq]
  · rw [token_eq]
    exact discarded.keepsStatements_iff read

/-- A variable with no semicolon behind it, and a statement. -/
def unendedVariable : List Token :=
  [(sample .varWord).token, (sample .identifier).token, (sample .equal).token,
    (sample .number).token, (sample .printWord).token, (sample .number).token,
    (sample .semicolon).token]

/-- The fault shows at the word that the statement starts with. -/
theorem declaration_unendedVariable :
    declaration (.start unendedVariable) =
      .error ⟨.missingSymbol .semicolon .afterVariableDeclaration, some (sample .printWord).token⟩
        (.start (unendedVariable.drop 4)) :=
  rfl

theorem recovery_exact_unended :
    ∃ error after, declaration (.start unendedVariable) = .error error after ∧
      ∃ read dropped left, unendedVariable = read ++ (dropped ++ left) ∧
        recovering declaration (.start unendedVariable) = .ok none (after.past left [error]) ∧
        error.token = dropped.head? ∧ Discarded dropped left ∧
        (KeepsStatements read dropped ↔
          ∀ token ∈ error.token, opensStatement token.kind = true → read = []) :=
  ⟨_, _, declaration_unendedVariable, recovery_exact declaration_unendedVariable⟩

/-- The statement is dropped with its first word, and nothing is made of it. -/
theorem recovery_drops_print :
    ∃ error after read dropped left,
      declaration (.start unendedVariable) = .error error after ∧
      recovering declaration (.start unendedVariable) = .ok none (after.past left [error]) ∧
      unendedVariable = read ++ (dropped ++ left) ∧ after.rest = dropped ++ left ∧
      ¬KeepsStatements read dropped ∧ (parseProgram unendedVariable).1 = [] := by
  refine ⟨_, _, unendedVariable.take 4, unendedVariable.drop 4, [], declaration_unendedVariable,
    recovering_of_error declaration_unendedVariable, rfl, rfl, ?_, rfl⟩
  intro keeps
  cases keeps [] _ _ rfl rfl

end Scriptlet.Parser
