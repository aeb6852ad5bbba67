import Scriptlet.Proofs.Evaluation.Lines
import Scriptlet.Proofs.Parser.ProgramLines
import Scriptlet.Proofs.Session.Reports
import Scriptlet.Proofs.Text.Cut
import Scriptlet.Proofs.Token.Layout

/-!
# Layout does not matter

With a local segmentation, a source that is laid out anew has the same tokens up to lines. Neither
the parser nor the evaluator looks at lines, so running it does the same: it prints the same text,
reports the same apart from lines, and leaves the same bindings apart from lines in functions. Only
faults of scanning, which leave no tokens, are lost when a source is laid out anew.
-/

namespace Scriptlet

open Text (Segmentation)
open Evaluation (OutcomesMatch)
open Interpreter (Alike AlikeSince StopsAlike)

/-- A diagnostic without its line. -/
def Diagnostic.withoutLine (diagnostic : Diagnostic) : Diagnostic :=
  { diagnostic with line := 0 }

theorem SyntaxError.diagnostic_withoutLine (error : SyntaxError) (last : Token) :
    (error.withoutLine.diagnostic last.withoutLine).withoutLine
      = (error.diagnostic last).withoutLine := by
  rcases error with ⟨cause, _ | token⟩ <;> rfl

theorem RuntimeError.diagnostic_withoutLine (error : RuntimeError) :
    error.withoutLine.diagnostic.withoutLine = error.diagnostic.withoutLine := by
  cases error <;> rfl

/-- Diagnostics without the lines that they are reported on. -/
def Diagnostics.withoutLines (diagnostics : Diagnostics) : Diagnostics :=
  { diagnostics with reported := diagnostics.reported.map Diagnostic.withoutLine }

namespace Diagnostics

theorem withoutLines_report (diagnostics : Diagnostics) (diagnostic : Diagnostic) :
    (diagnostics.report diagnostic).withoutLines
      = diagnostics.withoutLines.report diagnostic.withoutLine := by
  simp only [withoutLines, report, List.map_append, List.map_cons, List.map_nil]
  rfl

theorem withoutLines_reportAll (diagnostics : Diagnostics) (added : List Diagnostic) :
    (diagnostics.reportAll added).withoutLines
      = diagnostics.withoutLines.reportAll (added.map Diagnostic.withoutLine) := by
  induction added generalizing diagnostics with
  | nil => rfl
  | cons diagnostic added ih =>
      simp only [reportAll, List.foldl_cons, List.map_cons] at ih ⊢
      rw [ih, withoutLines_report]

end Diagnostics

namespace Session

/-- Runs from one session that end in the same way: with the same output, and with bindings and
diagnostics that are the same apart from lines; or without an answer for the same reason. -/
inductive RunsAlike : Except Abort Session → Except Abort Session → Prop where
  | finished {after other : Session} (alike : after.interpreter.Alike other.interpreter)
      (output_eq : after.interpreter.output = other.interpreter.output)
      (diagnostics_same : after.diagnostics.withoutLines = other.diagnostics.withoutLines) :
      RunsAlike (.ok after) (.ok other)
  | aborted {reason other : Abort} (alike : StopsAlike (.abort reason) (.abort other)) :
      RunsAlike (.error reason) (.error other)

end Session

/-- Interruptions that are the same up to lines are of one kind. -/
theorem Interpreter.StopsAlike.cases {stop other : Interruption} (alike : StopsAlike stop other) :
    (∃ error otherError : RuntimeError, stop = .error error ∧ other = .error otherError ∧
        error.withoutLine = otherError.withoutLine) ∨
      ∃ reason otherReason, stop = .abort reason ∧ other = .abort otherReason := by
  obtain ⟨copy, copied, other_copied⟩ := alike
  cases copied with
  | error error =>
      generalize copy_eq : error.withoutLine = copy at other_copied
      cases other_copied with
      | error otherError => exact .inl ⟨error, otherError, rfl, rfl, copy_eq⟩
  | strayJump _ =>
      cases other_copied
      exact .inr ⟨_, _, rfl, rfl⟩
  | exhausted =>
      cases other_copied
      exact .inr ⟨_, _, rfl, rfl⟩

/-- Runs of alike programs from one state write the same. -/
theorem Interpreter.AlikeSince.output_eq {before : Output} {state other : Interpreter}
    (alikeSince : AlikeSince before before state other) : state.output = other.output := by
  obtain ⟨text, written_eq, other_written_eq⟩ := alikeSince.printed
  have blank_eq : state.blank = other.blank := alikeSince.alike
  have room_eq : state.output.room = other.output.room :=
    congrArg (fun blank => blank.output.room) blank_eq
  have refusal_eq : state.output.refusal = other.output.refusal :=
    congrArg (fun blank => blank.output.refusal) blank_eq
  have whole_eq : state.output.written = other.output.written :=
    written_eq.trans other_written_eq.symm
  cases state_output : state.output
  cases other_output : other.output
  rw [state_output, other_output] at room_eq refusal_eq whole_eq
  cases room_eq
  cases refusal_eq
  cases whole_eq
  rfl

theorem Scan.last_ofString (segmentation : Segmentation) (source : String) :
    (ofString segmentation source).tokens.last.withoutLine = Token.atEnd 0 :=
  last_ofSegments 1 _

section

variable (segmentation : Segmentation) [segmentation.IsLocal]

/-- What is made of a source that is laid out anew is the same program apart from lines. -/
theorem programOf_relaid (source : String) :
    Stmt.listWithoutLines (programOf segmentation source)
      = Stmt.listWithoutLines (programOf segmentation (relaid segmentation source)) :=
  (Parser.parseProgram_alike (Scan.ofString_relaid segmentation source).2).1.symm

theorem Session.interpret_relaid (source : String) (state : Interpreter) (fuel : Nat) :
    OutcomesMatch (AlikeSince state.output state.output) StopsAlike (fun _ _ => True)
      (Interpreter.interpret fuel (programOf segmentation source) state)
      (Interpreter.interpret fuel (programOf segmentation (relaid segmentation source)) state) :=
  Interpreter.interpret_alike (rfl : state.Alike state) (programOf_relaid segmentation source) fuel

variable {segmentation} {source : String}

/-- A source that scans without report has the same faults apart from lines when it is laid out
anew. -/
theorem faults_relaid (silent : (Scan.ofString segmentation source).errors = []) :
    (Session.faults segmentation source).map Diagnostic.withoutLine
      = (Session.faults segmentation (relaid segmentation source)).map Diagnostic.withoutLine := by
  have diagnostic_eq (last : Token) (last_eq : last.withoutLine = Token.atEnd 0)
      (errors : List SyntaxError) :
      (errors.map (·.diagnostic last)).map Diagnostic.withoutLine
        = (errors.map SyntaxError.withoutLine).map
            fun error => (error.diagnostic (Token.atEnd 0)).withoutLine := by
    rw [List.map_map, List.map_map]
    apply List.map_congr_left
    intro error _
    rw [Function.comp_apply, ← error.diagnostic_withoutLine, last_eq]
    rfl
  rw [Session.faults, Session.faults, Session.staticDiagnostics, Session.staticDiagnostics, silent,
    (Scan.ofString_relaid segmentation source).1, List.map_nil, List.nil_append, List.nil_append,
    diagnostic_eq _ (Scan.last_ofString ..), diagnostic_eq _ (Scan.last_ofString ..),
    (Parser.parseProgram_alike (Scan.ofString_relaid segmentation source).2).2]

namespace Session

theorem diagnostics_parse_relaid (silent : (Scan.ofString segmentation source).errors = [])
    (session : Session) :
    (session.parse segmentation source).2.diagnostics.withoutLines
      = (session.parse segmentation (relaid segmentation source)).2.diagnostics.withoutLines := by
  rw [parse_eq, parse_eq, Diagnostics.withoutLines_reportAll, Diagnostics.withoutLines_reportAll,
    faults_relaid silent]

theorem runsAlike_relaid (silent : (Scan.ofString segmentation source).errors = [])
    (session : Session) (fuel : Nat) :
    RunsAlike (session.run segmentation fuel source)
      (session.run segmentation fuel (relaid segmentation source)) := by
  have diagnostics_same := diagnostics_parse_relaid silent session
  have hadError_eq : (session.parse segmentation source).2.diagnostics.hadError
      = (session.parse segmentation (relaid segmentation source)).2.diagnostics.hadError :=
    congrArg (fun diagnostics => diagnostics.hadError) diagnostics_same
  cases fault : (session.parse segmentation source).2.diagnostics.hadError with
  | true =>
      rw [run_of_fault fault, run_of_fault (hadError_eq ▸ fault)]
      exact .finished rfl rfl diagnostics_same
  | false =>
      rw [run_of_no_fault fault, run_of_no_fault (hadError_eq ▸ fault)]
      have outcomes := interpret_relaid segmentation source session.interpreter fuel
      simp only [interpret, parse_eq] at diagnostics_same ⊢
      revert outcomes
      generalize
        Interpreter.interpret fuel (programOf segmentation source) session.interpreter = outcome,
        Interpreter.interpret fuel (programOf segmentation (relaid segmentation source))
          session.interpreter = otherOutcome
      intro outcomes
      cases outcomes with
      | ok _ alikeSince => exact .finished alikeSince.alike alikeSince.output_eq diagnostics_same
      | error stops_alike alikeSince =>
          rcases stops_alike.cases with ⟨error, otherError, rfl, rfl, same⟩ | ⟨_, _, rfl, rfl⟩
          · refine .finished alikeSince.alike alikeSince.output_eq ?_
            rw [Diagnostics.withoutLines_report, Diagnostics.withoutLines_report,
              ← error.diagnostic_withoutLine, same, otherError.diagnostic_withoutLine,
              diagnostics_same]
          · exact .aborted stops_alike

end Session

end

/-- With a local segmentation, a source and the texts of its tokens with spaces between them are the
same tokens up to lines, and the latter scans without report. If the source does so too, both stand
for the same program apart from lines, with the same faults apart from lines. From every state,
finished or not, runs of the two have written the same and agree on the state and on the error apart
from lines; and sessions end alike. -/
theorem layout_does_not_matter {segmentation : Segmentation} [isLocal : segmentation.IsLocal]
    (source : String) :
    (Scan.ofString segmentation (relaid segmentation source)).errors = [] ∧
    (Scan.ofString segmentation (relaid segmentation source)).tokens.toList.map Token.withoutLine
      = (Scan.ofString segmentation source).tokens.toList.map Token.withoutLine ∧
    ((Scan.ofString segmentation source).errors = [] →
      (Session.faults segmentation source).map Diagnostic.withoutLine
        = (Session.faults segmentation (relaid segmentation source)).map Diagnostic.withoutLine ∧
      (∀ state fuel, OutcomesMatch
        (fun after other => after.Alike other ∧ after.output = other.output) StopsAlike
        (fun _ _ => True)
        (Interpreter.interpret fuel (programOf segmentation source) state)
        (Interpreter.interpret fuel (programOf segmentation (relaid segmentation source)) state)) ∧
      ∀ session fuel,
        Session.RunsAlike (Session.run segmentation fuel session source)
          (Session.run segmentation fuel session (relaid segmentation source))) := by
  obtain ⟨silent, body_same⟩ := Scan.ofString_relaid segmentation source
  refine ⟨silent, ?_, ?_⟩
  · rw [Tokens.toList, Tokens.toList, List.map_append, List.map_append, body_same, List.map_cons,
      List.map_cons, Scan.last_ofString, Scan.last_ofString]
  · intro source_silent
    refine ⟨faults_relaid source_silent, ?_, Session.runsAlike_relaid source_silent⟩
    intro state fuel
    refine (Session.interpret_relaid segmentation source state fuel).mono ?_
    intro after other alikeSince
    exact ⟨alikeSince.alike, alikeSince.output_eq⟩

/-- Comments, line ends and missing spaces make no difference; the line end in the string stays. -/
theorem layout_does_not_matter_comment :
    relaid .graphemes "var a=\"x\n\";// note\nprint(a+1./**/b)"
        = "var a = \"x\n\" ; print ( a + 1 . b )" ∧
      ∀ session fuel,
        Session.RunsAlike
          (Session.run .graphemes fuel session "var a=\"x\n\";// note\nprint(a+1./**/b)")
          (Session.run .graphemes fuel session
            (relaid .graphemes "var a=\"x\n\";// note\nprint(a+1./**/b)")) := by
  refine ⟨by decide +kernel, ?_⟩
  exact ((layout_does_not_matter _).2.2 (by decide +kernel)).2.2

end Scriptlet
