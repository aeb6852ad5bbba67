import Scriptlet.Proofs.Evaluation.Lines
import Scriptlet.Proofs.Session.Joined
import Scriptlet.Proofs.Session.Reports

/-!
# Lines run one after the other

The transcript of some lines is what each of them prints when they are run in order on one session,
up to the first that raises a runtime error. A program that is the lines one after the other, apart
from where they stand, prints the same and ends in the same way.
-/

namespace Scriptlet

open Text (Segmentation)
open Interpreter (Alike AlikeSince exists_ok_of_alike exists_error_of_alike)

/-- Texts put together. -/
def joinTexts : List ByteArray → ByteArray
  | [] => .empty
  | text :: texts => text ++ joinTexts texts

namespace Session

/-- What lines print, in order and up to one that raises a runtime error, and whether one does. -/
def transcript (segmentation : Segmentation) (fuel : Nat) (session : Session) :
    List String → Except Abort (List ByteArray × Bool)
  | [] => .ok ([], false)
  | line :: lines => do
      let after ← session.run segmentation fuel line
      let text := after.written.extract session.written.size after.written.size
      if after.diagnostics.hadRuntimeError then pure ([text], true)
      else do
        let (texts, failed) ← after.transcript segmentation fuel lines
        pure (text :: texts, failed)

variable {segmentation : Segmentation} {session : Session} {fuel : Nat}

theorem run_of_clean {source : String} (clean : IsClean segmentation source)
    (unreported : session.diagnostics = .empty) (fuel : Nat) :
    session.run segmentation fuel source
      = session.interpret fuel (programOf segmentation source) := by
  apply run_of_faultless clean
  rw [unreported]
  rfl

theorem transcript_of_fault {after : Session} {line : String} {lines : List String}
    {text : ByteArray} (finished : session.run segmentation fuel line = .ok after)
    (fault : after.diagnostics.hadRuntimeError = true)
    (written_eq : after.written = session.written ++ text) :
    session.transcript segmentation fuel (line :: lines) = .ok ([text], true) := by
  have text_eq : (session.written ++ text).extract session.written.size
      (session.written ++ text).size = text :=
    ByteArray.extract_append_eq_right rfl ByteArray.size_append
  simp only [transcript, finished, bind, Except.bind, fault, written_eq, text_eq, if_true]
  rfl

theorem transcript_of_success {after : Session} {line : String} {lines : List String}
    {text : ByteArray} (finished : session.run segmentation fuel line = .ok after)
    (no_fault : after.diagnostics.hadRuntimeError = false)
    (written_eq : after.written = session.written ++ text) :
    session.transcript segmentation fuel (line :: lines)
      = (after.transcript segmentation fuel lines).map fun told => (text :: told.1, told.2) := by
  have text_eq : (session.written ++ text).extract session.written.size
      (session.written ++ text).size = text :=
    ByteArray.extract_append_eq_right rfl ByteArray.size_append
  simp only [transcript, finished, bind, Except.bind, no_fault, written_eq, text_eq,
    Bool.false_eq_true, if_false]
  rfl

/-- The first line raises a runtime error, or the others are run after it. -/
theorem transcript_cons {line : String} {lines : List String} {texts : List ByteArray}
    {failed : Bool} (clean : IsClean segmentation line) (unreported : session.diagnostics = .empty)
    (told : session.transcript segmentation fuel (line :: lines) = .ok (texts, failed)) :
    (∃ error state text,
      Interpreter.interpret fuel (programOf segmentation line) session.interpreter
          = .error (.error error) state ∧
        state.output.written = session.written ++ text ∧ texts = [text] ∧ failed = true) ∨
    ∃ state text later,
      Interpreter.interpret fuel (programOf segmentation line) session.interpreter = .ok () state ∧
        state.output.written = session.written ++ text ∧ texts = text :: later ∧
        ({ session with interpreter := state } : Session).transcript segmentation fuel lines
          = .ok (later, failed) := by
  have run_eq := run_of_clean clean unreported fuel
  cases finished : session.interpret fuel (programOf segmentation line) with
  | error reason =>
      rw [transcript, run_eq, finished] at told
      cases told
  | ok after =>
      rw [finished] at run_eq
      have alike : session.interpreter.Alike session.interpreter := rfl
      rcases interpret_cases finished with ⟨state, run, rfl⟩ | ⟨error, state, run, rfl⟩
      · rcases exists_ok_of_alike alike rfl run with ⟨_, -, alikeSince⟩
        rcases alikeSince.printed with ⟨text, written_eq, -⟩
        have no_fault : session.diagnostics.hadRuntimeError = false := by
          rw [unreported]
          rfl
        rw [transcript_of_success run_eq no_fault written_eq] at told
        cases later_told :
            transcript segmentation fuel { session with interpreter := state } lines with
        | error reason =>
            rw [later_told] at told
            cases told
        | ok later =>
            rw [later_told] at told
            cases told
            exact .inr ⟨state, text, later.1, run, written_eq, rfl, later_told⟩
      · rcases exists_error_of_alike alike rfl run with ⟨_, _, -, -, alikeSince⟩
        rcases alikeSince.printed with ⟨text, written_eq, -⟩
        have fault : (session.diagnostics.report error.diagnostic).hadRuntimeError = true := by
          simp [Diagnostics.report, RuntimeError.diagnostic, Diagnostic.ofToken]
        rw [transcript_of_fault run_eq fault written_eq] at told
        cases told
        exact .inl ⟨error, state, text, run, written_eq, rfl, rfl⟩

/-- A program that is some clean lines, one after the other, prints what they print and fails if
one of them does. -/
theorem program_of_transcript {lines : List String} {texts : List ByteArray} {failed : Bool}
    (clean : ∀ line ∈ lines, IsClean segmentation line) (unreported : session.diagnostics = .empty)
    (told : session.transcript segmentation fuel lines = .ok (texts, failed))
    {state : Interpreter} (alike : session.interpreter.Alike state) {program : List Stmt}
    (same : Stmt.listWithoutLines program
      = lines.flatMap fun line => Stmt.listWithoutLines (programOf segmentation line)) :
    ∃ after, after.output.written = state.output.written ++ joinTexts texts ∧
      ((failed = false ∧ Interpreter.interpret fuel program state = .ok () after) ∨
        (failed = true ∧ ∃ error,
          Interpreter.interpret fuel program state = .error (.error error) after)) := by
  induction lines generalizing session texts state program with
  | nil =>
      cases told
      rw [Stmt.listWithoutLines_eq, List.flatMap_nil, List.map_eq_nil_iff] at same
      subst same
      exact ⟨state, ByteArray.append_empty.symm, .inl ⟨rfl, rfl⟩⟩
  | cons line lines ih =>
      rw [List.forall_mem_cons] at clean
      rw [Stmt.listWithoutLines_eq, List.flatMap_cons] at same
      rcases List.map_eq_append_iff.mp same with ⟨first, second, rfl, first_eq, second_eq⟩
      rw [← Stmt.listWithoutLines_eq] at first_eq second_eq
      rcases transcript_cons clean.1 unreported told with
        ⟨error, reached, text, run, written_eq, rfl, rfl⟩ |
        ⟨reached, text, later, run, written_eq, rfl, later_told⟩
      · rcases exists_error_of_alike alike first_eq.symm run with
          ⟨otherError, after, first_run, -, alikeSince⟩
        refine ⟨after, ?_, .inr ⟨rfl, otherError, ?_⟩⟩
        · rw [alikeSince.written_eq written_eq, joinTexts, joinTexts, ByteArray.append_empty]
        · exact Interpreter.interpret_append_of_error first_run second
      · rcases exists_ok_of_alike alike first_eq.symm run with ⟨middle, first_run, alikeSince⟩
        have still_unreported : ({ session with interpreter := reached } : Session).diagnostics
            = .empty := unreported
        rcases ih clean.2 still_unreported later_told alikeSince.alike second_eq with
          ⟨after, after_written, ends⟩
        refine ⟨after, ?_, ?_⟩
        · rw [after_written, alikeSince.written_eq written_eq, joinTexts, ByteArray.append_assoc]
        · rw [Interpreter.interpret_append_of_ok first_run second]
          exact ends

end Session

end Scriptlet
