import Scriptlet.Proofs.Parser.StatementPrediction

/-!
# Programs are read to their end

Reading a program never fails, since every declaration that fails is skipped, and it leaves no
token. So the outcome of reading is a list of statements and the list of all reported errors.
-/

namespace Scriptlet.Parser

open Grammar

variable {α β : Type} {tolerated : Tolerance}

/-- A reader that never fails. -/
structure Total (parser : Parser α) : Prop where
  run : ∀ before : State, ∃ value after, parser before = .ok value after

section Total

variable {parser : Parser α}

theorem total_pure (value : α) : Total (pure value : Parser α) :=
  ⟨fun before => ⟨value, before, rfl⟩⟩

theorem Total.bind (first : Total parser) {next : α → Parser β}
    (second : ∀ value, Total (next value)) : Total (parser >>= next) := by
  constructor
  intro before
  obtain ⟨value, middle, run⟩ := first.run before
  obtain ⟨result, after, later⟩ := (second value).run middle
  exact ⟨result, after, (bind_of_ok run).trans later⟩

theorem Total.map (total : Total parser) (wrap : α → β) : Total (wrap <$> parser) := by
  rw [map_eq_pure_bind]
  exact total.bind fun value => total_pure (wrap value)

theorem total_loop {step : α → Parser (Option α)} (steps : ∀ value, Total (step value))
    (value : α) : Total (loop step value) := by
  have bounded (bound : List Token) : Total (iterate step bound value) := by
    induction bound generalizing value with
    | nil => exact total_pure value
    | cons _ bound ih =>
        refine (steps value).bind ?_
        rintro (_ | next)
        · exact total_pure value
        · exact ih next
  exact ⟨fun before => (bounded before.rest).run before⟩

theorem total_many {item : Parser (Option α)} (items : Total item) : Total (many item) :=
  have steps (earlier : List α) :
      Total (item >>= fun found => pure (found.map (· :: earlier))) :=
    items.bind fun found => total_pure (found.map (· :: earlier))
  (total_loop steps []).bind fun reversed => total_pure reversed.reverse

theorem total_recovering (parser : Parser α) : Total (recovering parser) := by
  constructor
  intro before
  cases run : parser before with
  | ok value after => exact ⟨_, _, recovering_of_ok run⟩
  | error error after => exact ⟨_, _, recovering_of_error run⟩

theorem total_programPart : Total programPart := by
  have looked : Total atEnd := ⟨fun before => ⟨before.rest.isEmpty, before, rfl⟩⟩
  refine looked.bind ?_
  intro ended
  split
  · exact total_pure none
  · exact (total_recovering declaration).map some

theorem total_program : Total program :=
  (total_many total_programPart).bind fun results => total_pure (results.filterMap id)

end Total

/-- What is made of tokens is what the run on them gives. -/
theorem exists_run_program (tokens : List Token) :
    ∃ after, program (.start tokens) = .ok (parseProgram tokens).1 after ∧
      after.errors = (parseProgram tokens).2 := by
  obtain ⟨statements, after, program_run⟩ := total_program.run (.start tokens)
  refine ⟨after, ?_, ?_⟩ <;> simp only [parseProgram, run, program_run]

theorem stop_program_errors (tokens : List Token) :
    (stop program (.start tokens)).errors = (parseProgram tokens).2 := by
  obtain ⟨after, program_run, errors_eq⟩ := exists_run_program tokens
  rw [stop_of_ok program_run, errors_eq]

/-- What is made of tokens does not depend on the errors before. -/
theorem run_program_eq (state : State) (outside_loop : state.loopDepth = 0)
    (outside_function : state.functionDepth = 0) :
    program state =
      .ok (parseProgram state.rest).1 (state.past [] (parseProgram state.rest).2) := by
  obtain ⟨after, program_run, errors_eq⟩ := exists_run_program state.rest
  have ended : after.rest = [] := by
    obtain ⟨read, _, described⟩ :=
      (@reads_program everything).described_of_ok program_run fun _ _ => trivial
    exact (described rfl).1
  have follows : Follows .anything (program (.start state.rest))
      ((stop program (.start state.rest)).rest ++ []) := by
    rw [List.append_nil]
    exact Follows.of_head?_eq rfl
  have run := (recognizes_program lax_everything).foresees.run_append (.start state.rest) state
    (Nat.lt_succ_self _) rfl (List.append_nil state.rest).symm outside_loop outside_function follows
  rw [program_run, stop_of_ok program_run, ended, errors_eq] at run
  exact run

theorem programPart_of_recovering {before after : State} {result : Option Stmt}
    (nonempty : before.rest ≠ []) (run : recovering declaration before = .ok result after) :
    programPart before = .ok (some result) after := by
  have looked : atEnd before = .ok false before := by
    rw [atEnd, List.isEmpty_eq_false_iff.mpr nonempty]
  rw [programPart, bind_of_ok looked, if_neg Bool.false_ne_true, map_eq_pure_bind, bind_of_ok run]
  rfl

/-- A declaration that is read or skipped takes a token, if there is one. -/
theorem length_lt_of_recovering {before after : State} {result : Option Stmt}
    (nonempty : before.rest ≠ []) (run : recovering declaration before = .ok result after) :
    after.rest.length < before.rest.length :=
  itemAdvances_programPart.progress (programPart_of_recovering nonempty run)

/-- A program is its first declaration, unless that is skipped, and then the others. -/
theorem run_program_of_recovering {before middle after : State} {found : Option Stmt}
    {statements : List Stmt} (nonempty : before.rest ≠ [])
    (first : recovering declaration before = .ok found middle)
    (others : program middle = .ok statements after) :
    program before = .ok (found.toList ++ statements) after := by
  have part := programPart_of_recovering nonempty first
  rw [program_eq] at others ⊢
  rw [itemAdvances_programPart.many_eq, bind_assoc, bind_of_ok part]
  cases parts_run : many programPart middle with
  | error error stopped =>
      rw [bind_of_error parts_run] at others
      cases others
  | ok results stopped =>
      rw [bind_of_ok parts_run] at others
      cases others
      simp only [map_eq_pure_bind, bind_assoc, pure_bind]
      rw [bind_of_ok parts_run]
      cases found <;> rfl

/-- The errors in what is derived are tolerated. -/
theorem tolerated_of_derivesProgram (whole : ¬Skips tolerated) {tokens : List Token}
    {statements : List Stmt} (derives : DerivesProgram tolerated tokens statements) :
    ∀ error ∈ (parseProgram tokens).2, tolerated error.cause := by
  obtain ⟨after, program_run, reaches⟩ := accepts_program whole derives (.start tokens)
    (by simp [State.start]) (by simp [State.start, State.surroundings])
  obtain ⟨added, errors_eq, all⟩ := reaches.errors_eq
  rw [← stop_program_errors, stop_of_ok program_run, errors_eq]
  exact all

end Scriptlet.Parser
