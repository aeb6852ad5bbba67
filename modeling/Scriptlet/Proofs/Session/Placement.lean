import Scriptlet.Proofs.Evaluation.Placement
import Scriptlet.Session
import Scriptlet.Text.Grapheme

/-!
# Every run has an answer

An interpreter that has run any sources, faulty ones included, holds only functions with well placed
bodies, unless a source with a misplaced jump was run. So no run meets a stray jump. Sessions do not
run a source with a misplaced jump, because it is a static error.
-/

namespace Scriptlet

open Text (Segmentation)
open Grammar Evaluation

/-- Reading a source reports no misplaced jump, whatever else it reports. -/
def JumpsPlaced (segmentation : Segmentation) (source : String) : Prop :=
  ∀ error ∈ (Parser.parseProgram (Scan.ofString segmentation source).tokens.body).2,
    error.cause.isMisplacement = false

instance (segmentation : Segmentation) (source : String) :
    Decidable (JumpsPlaced segmentation source) :=
  inferInstanceAs (Decidable (∀ error ∈ _, _))

/-- What is made of a source, also if it has faults. -/
def programOf (segmentation : Segmentation) (source : String) : List Stmt :=
  (Parser.parseProgram (Scan.ofString segmentation source).tokens.body).1

/-- Interpreters that sources without misplaced jumps lead to, run one after the other. Each run
ends normally or with a runtime error. -/
inductive Interpreter.Reached (segmentation : Segmentation) : Interpreter → Prop where
  | start (output : Output) (clock : Clock) : Reached segmentation (.start output clock)
  | finished {before after : Interpreter} {source : String} {fuel : Nat}
      (reached : Reached segmentation before) (placed : JumpsPlaced segmentation source)
      (run : interpret fuel (programOf segmentation source) before = .ok () after) :
      Reached segmentation after
  | failed {before after : Interpreter} {source : String} {fuel : Nat} {error : RuntimeError}
      (reached : Reached segmentation before) (placed : JumpsPlaced segmentation source)
      (run : interpret fuel (programOf segmentation source) before = .error (.error error) after) :
      Reached segmentation after

/-- Sessions that come about by running and parsing any sources. -/
inductive Session.Reached (segmentation : Segmentation) : Session → Prop where
  | start (output : Output) (clock : Clock) : Reached segmentation (.start output clock)
  | run {before after : Session} {source : String} {fuel : Nat}
      (reached : Reached segmentation before)
      (finished : before.run segmentation fuel source = .ok after) : Reached segmentation after
  | parse {before : Session} (source : String) (reached : Reached segmentation before) :
      Reached segmentation (before.parse segmentation source).2
  | reset {before : Session} (reached : Reached segmentation before) :
      Reached segmentation before.reset
  | write {before : Session} (text : String) (reached : Reached segmentation before) :
      Reached segmentation (before.write text)

variable {segmentation : Segmentation}

/-- Every function in the state has a well placed body. -/
abbrev Interpreter.WellPlaced : Interpreter → Prop :=
  Interpreter.Admitted FunctionDeclaration.WellPlaced

theorem JumpsPlaced.wellPlaced_programOf {source : String}
    (placed : JumpsPlaced segmentation source) :
    ∀ statement ∈ programOf segmentation source, statement.WellPlaced ⟨false, false⟩ :=
  Parser.wellPlaced_parseProgram placed

theorem Interpreter.Reached.wellPlaced {state : Interpreter}
    (reached : state.Reached segmentation) : state.WellPlaced := by
  induction reached with
  | start output clock => exact admitted_start output clock
  | finished _ placed run ih =>
      exact ((orderly_interpret _ placed.wellPlaced_programOf).of_ok ih run).1
  | failed _ placed run ih =>
      exact ((orderly_interpret _ placed.wellPlaced_programOf).of_error ih run).1

theorem Interpreter.interpret_ne_strayJump {state after : Interpreter} {program : List Stmt}
    (wellPlaced : state.WellPlaced)
    (placed : ∀ statement ∈ program, statement.WellPlaced ⟨false, false⟩)
    (fuel : Nat) (completion : Completion) :
    interpret fuel program state ≠ .error (.abort (.strayJump completion)) after := by
  intro run
  exact ((orderly_interpret fuel placed).of_error wellPlaced run).2

theorem Diagnostics.hadError_reportAll (diagnostics : Diagnostics) (added : List Diagnostic) :
    (diagnostics.reportAll added).hadError =
      (diagnostics.hadError || added.any (·.kind = .static)) := by
  induction added generalizing diagnostics with
  | nil => simp [reportAll]
  | cons diagnostic added ih =>
      simp only [reportAll, List.foldl_cons, List.any_cons] at ih ⊢
      rw [ih, report, Bool.or_assoc]

namespace Session

/-- A source is run only if nothing is wrong with it. -/
theorem jumpsPlaced_of_parse {session : Session} {source : String}
    (accepted : (session.parse segmentation source).2.diagnostics.hadError = false) :
    JumpsPlaced segmentation source := by
  intro error error_mem
  simp only [parse, Diagnostics.hadError_reportAll, staticDiagnostics, List.any_append,
    Bool.or_eq_false_iff, List.any_map, List.any_eq_false] at accepted
  exact absurd rfl (accepted.2.2 error error_mem)

theorem run_of_fault {session : Session} {source : String}
    (fault : (session.parse segmentation source).2.diagnostics.hadError = true) (fuel : Nat) :
    session.run segmentation fuel source = .ok (session.parse segmentation source).2 := by
  simp only [run, fault, if_true]

theorem run_of_no_fault {session : Session} {source : String}
    (accepted : (session.parse segmentation source).2.diagnostics.hadError = false) (fuel : Nat) :
    session.run segmentation fuel source
      = (session.parse segmentation source).2.interpret fuel (programOf segmentation source) := by
  simp only [run, accepted, Bool.false_eq_true, if_false]
  rfl

/-- Running a source reports a static error in it, or interprets it. -/
theorem run_cases (session : Session) (source : String) (fuel : Nat) :
    session.run segmentation fuel source = .ok (session.parse segmentation source).2 ∨
      (JumpsPlaced segmentation source ∧
        session.run segmentation fuel source
          = (session.parse segmentation source).2.interpret fuel
              (programOf segmentation source)) := by
  cases fault : (session.parse segmentation source).2.diagnostics.hadError with
  | true => exact .inl (run_of_fault fault fuel)
  | false => exact .inr ⟨jumpsPlaced_of_parse fault, run_of_no_fault fault fuel⟩

/-- A run that finishes ends normally or reports the runtime error that ended it. -/
theorem interpret_cases {session after : Session} {fuel : Nat} {program : List Stmt}
    (finished : session.interpret fuel program = .ok after) :
    (∃ state, Interpreter.interpret fuel program session.interpreter = .ok () state ∧
        after = { session with interpreter := state }) ∨
      ∃ error state,
        Interpreter.interpret fuel program session.interpreter = .error (.error error) state ∧
          after = ⟨state, session.diagnostics.report error.diagnostic⟩ := by
  cases run : Interpreter.interpret fuel program session.interpreter with
  | ok value state =>
      simp only [interpret, run, Except.ok.injEq] at finished
      exact .inl ⟨state, rfl, finished.symm⟩
  | error stop state =>
      cases stop with
      | error error =>
          simp only [interpret, run, Except.ok.injEq] at finished
          exact .inr ⟨error, state, rfl, finished.symm⟩
      | abort reason => simp [interpret, run] at finished

theorem interpret_of_ok {session : Session} {fuel : Nat} {program : List Stmt}
    {state : Interpreter}
    (run : Interpreter.interpret fuel program session.interpreter = .ok () state) :
    session.interpret fuel program = .ok { session with interpreter := state } := by
  simp only [interpret, run]

theorem interpret_of_error {session : Session} {fuel : Nat} {program : List Stmt}
    {state : Interpreter} {error : RuntimeError}
    (run : Interpreter.interpret fuel program session.interpreter = .error (.error error) state) :
    session.interpret fuel program = .ok ⟨state, session.diagnostics.report error.diagnostic⟩ := by
  simp only [interpret, run]

theorem wellPlaced_of_interpret {session after : Session} {fuel : Nat} {program : List Stmt}
    (wellPlaced : session.interpreter.WellPlaced)
    (placed : ∀ statement ∈ program, statement.WellPlaced ⟨false, false⟩)
    (finished : session.interpret fuel program = .ok after) : after.interpreter.WellPlaced := by
  have orderly := Interpreter.orderly_interpret fuel placed
  rcases interpret_cases finished with ⟨state, run, rfl⟩ | ⟨error, state, run, rfl⟩
  · exact (orderly.of_ok wellPlaced run).1
  · exact (orderly.of_error wellPlaced run).1

theorem Reached.wellPlaced {session : Session} (reached : session.Reached segmentation) :
    session.interpreter.WellPlaced := by
  induction reached with
  | start output clock => exact Interpreter.admitted_start output clock
  | @run before after source fuel _ finished ih =>
      rcases run_cases before source fuel with refused | ⟨placed, interpreted⟩
      · rw [refused] at finished
        cases finished
        exact ih
      · rw [interpreted] at finished
        have parsed : (before.parse segmentation source).2.interpreter.WellPlaced := ih
        exact wellPlaced_of_interpret parsed placed.wellPlaced_programOf finished
  | parse _ _ ih | reset _ ih | write _ _ ih => exact ih

theorem run_ne_strayJump {session : Session} (reached : session.Reached segmentation) (fuel : Nat)
    (source : String) (completion : Completion) :
    session.run segmentation fuel source ≠ .error (.strayJump completion) := by
  intro aborted
  rcases run_cases session source fuel with refused | ⟨placed, interpreted⟩
  · rw [refused] at aborted
    cases aborted
  · rw [interpreted] at aborted
    cases run : Interpreter.interpret fuel (programOf segmentation source) session.interpreter with
    | ok value state => simp [interpret, parse, run] at aborted
    | error stop state =>
        cases stop with
        | error error => simp [interpret, parse, run] at aborted
        | abort reason =>
            simp only [interpret, parse, run, Except.error.injEq] at aborted
            subst aborted
            exact Interpreter.interpret_ne_strayJump reached.wellPlaced
              placed.wellPlaced_programOf fuel completion run

end Session

/-- Runs on an interpreter that has run any sources have an answer if the jumps of all of them are
placed; runs in a session always have one; and every operator in a tree is one that evaluation has
a meaning for. -/
theorem runs_have_answers (segmentation : Segmentation) :
    (∀ state : Interpreter, state.Reached segmentation → ∀ source, JumpsPlaced segmentation source →
      ∀ fuel completion after,
        Interpreter.interpret fuel (programOf segmentation source) state ≠
          .error (.abort (.strayJump completion)) after) ∧
    (∀ session : Session, session.Reached segmentation → ∀ source fuel completion,
      session.run segmentation fuel source ≠ .error (.strayJump completion)) ∧
    (∀ operator : Operator UnaryOperator.kind, operator.token.kind ∈
      ([.minus, .bang] : List Token.Kind)) ∧
    (∀ operator : Operator BinaryOperator.kind, operator.token.kind ∈
      ([.plus, .minus, .star, .slash, .greater, .greaterEqual, .less, .lessEqual, .equalEqual,
        .bangEqual] : List Token.Kind)) := by
  refine ⟨?_, ?_, ?_, ?_⟩
  · intro state reached source placed fuel completion after
    exact Interpreter.interpret_ne_strayJump reached.wellPlaced placed.wellPlaced_programOf fuel
      completion
  · intro session reached source fuel completion
    exact Session.run_ne_strayJump reached fuel source completion
  · intro operator
    rw [operator.kind_eq]
    cases operator.meaning <;> decide
  · intro operator
    rw [operator.kind_eq]
    cases operator.meaning <;> decide

/-- Faults of other kinds do not matter: the last declaration of this source is one. -/
theorem runs_have_answers_despite_fault :
    JumpsPlaced .graphemes "fun f() { while (true) return 1; } print f(); var;" ∧
      ∀ output clock fuel completion after,
        Interpreter.interpret fuel
            (programOf .graphemes "fun f() { while (true) return 1; } print f(); var;")
            (.start output clock) ≠
          .error (.abort (.strayJump completion)) after := by
  have placed : JumpsPlaced .graphemes "fun f() { while (true) return 1; } print f(); var;" := by
    decide +kernel
  exact ⟨placed, fun output clock =>
    (runs_have_answers .graphemes).1 _ (.start output clock) _ placed⟩

end Scriptlet
