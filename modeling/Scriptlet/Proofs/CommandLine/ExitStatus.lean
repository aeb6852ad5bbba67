import Scriptlet.Proofs.CommandLine.Agreement

/-!
# Exit statuses of scripts

A script is refused for its faults, fails with a runtime error, or comes to its end. The status,
what is printed and what is told on the error output go together in each of these cases, and there
is no other way to end: no jump leaves a script without faults. With the flag nothing is evaluated,
so only faults count.
-/

namespace Scriptlet.CommandLine

open Text (Segmentation)
open Session (faults)

/-- Diagnostics as they are told, one a line. -/
def told (diagnostics : List Diagnostic) : String :=
  String.join (diagnostics.map fun diagnostic => diagnostic.text ++ "\n")

theorem echo_eq (session : Session) : echo session = told session.diagnostics.reported := by
  simp only [echo, told, Diagnostics.texts, List.map_map]
  rfl

/-- What a script gives: its faults and nothing printed if it has any; else what it prints, up to
the runtime error that it is told to fail with or up to its end. -/
inductive ScriptGives (segmentation : Segmentation) (fuel : Nat) (clock : Clock)
    (source : String) : Outcome → Prop where
  | refused (faulty : faults segmentation source ≠ []) :
      ScriptGives segmentation fuel clock source
        ⟨.staticError, .empty, told (faults segmentation source)⟩
  | failed {error : RuntimeError} {after : Interpreter}
      (faultless : faults segmentation source = [])
      (run : Interpreter.interpret fuel (programOf segmentation source) (.start .unlimited clock)
        = .error (.error error) after) :
      ScriptGives segmentation fuel clock source
        ⟨.runtimeError, after.output.written, told [error.diagnostic]⟩
  | finished {after : Interpreter} (faultless : faults segmentation source = [])
      (run : Interpreter.interpret fuel (programOf segmentation source) (.start .unlimited clock)
        = .ok () after) :
      ScriptGives segmentation fuel clock source ⟨.success, after.output.written, ""⟩

section

variable {segmentation : Segmentation} {source : String}

/-- Reading a source on a session without diagnostics finds an error if the source has faults. -/
theorem hadError_parse_start (output : Output) (clock : Clock) :
    ((Session.start output clock).parse segmentation source).2.diagnostics.hadError = true ↔
      faults segmentation source ≠ [] := by
  rw [Session.hadError_parse, Session.start, Diagnostics.empty, Bool.false_or, List.any_eq_true]
  constructor
  · rintro ⟨diagnostic, mem, -⟩
    exact List.ne_nil_of_mem mem
  · intro faulty
    obtain ⟨diagnostic, mem⟩ := List.exists_mem_of_ne_nil _ faulty
    exact ⟨diagnostic, mem, decide_eq_true (Session.kind_of_mem_faults mem)⟩

theorem reported_parse_start (output : Output) (clock : Clock) :
    ((Session.start output clock).parse segmentation source).2.diagnostics.reported
      = faults segmentation source :=
  Diagnostics.reported_reportAll .empty (faults segmentation source)

theorem run_start_of_faultless (faultless : faults segmentation source = []) (fuel : Nat)
    (output : Output) (clock : Clock) :
    (Session.start output clock).run segmentation fuel source
      = (Session.start output clock).interpret fuel (programOf segmentation source) :=
  Session.run_of_faultless faultless rfl fuel

/-- What a script gives is what its session ends with. -/
theorem scriptGives_iff {fuel : Nat} {clock : Clock} {outcome : Outcome} :
    ScriptGives segmentation fuel clock source outcome ↔
      ∃ after, (Session.start .unlimited clock).run segmentation fuel source = .ok after ∧
        outcome = ⟨statusOf after.diagnostics, after.written, echo after⟩ := by
  constructor
  · intro gives
    cases gives with
    | refused faulty =>
        have fault := (hadError_parse_start .unlimited clock).mpr faulty
        refine ⟨_, Session.run_of_fault fault fuel, ?_⟩
        rw [statusOf, if_pos fault, echo_eq, reported_parse_start]
        rfl
    | failed faultless run =>
        refine ⟨_, (run_start_of_faultless faultless ..).trans (Session.interpret_of_error run), ?_⟩
        rw [echo_eq]
        rfl
    | finished faultless run =>
        refine ⟨_, (run_start_of_faultless faultless ..).trans (Session.interpret_of_ok run), ?_⟩
        rfl
  · rintro ⟨after, finished, rfl⟩
    by_cases faultless : faults segmentation source = []
    · rw [run_start_of_faultless faultless] at finished
      rcases Session.interpret_cases finished with ⟨state, run, rfl⟩ | ⟨error, state, run, rfl⟩
      · exact .finished faultless run
      · rw [echo_eq]
        exact .failed faultless run
    · have fault := (hadError_parse_start .unlimited clock).mpr faultless
      rw [Session.run_of_fault fault] at finished
      cases finished
      rw [statusOf, if_pos fault, echo_eq, reported_parse_start]
      exact .refused faultless

end

/-- Each status has its cause. -/
theorem ScriptGives.code_iff {segmentation : Segmentation} {fuel : Nat} {clock : Clock}
    {source : String} {outcome : Outcome}
    (gives : ScriptGives segmentation fuel clock source outcome) :
    (outcome.status.code = 65 ↔ faults segmentation source ≠ []) ∧
    (outcome.status.code = 70 ↔ faults segmentation source = [] ∧ ∃ error after,
      Interpreter.interpret fuel (programOf segmentation source) (.start .unlimited clock)
        = .error (.error error) after) ∧
    (outcome.status.code = 0 ↔ faults segmentation source = [] ∧ ∃ after,
      Interpreter.interpret fuel (programOf segmentation source) (.start .unlimited clock)
        = .ok () after) := by
  cases gives with
  | refused faulty => simp [ExitStatus.code, faulty]
  | failed faultless run => simp [ExitStatus.code, faultless, run]
  | finished faultless run => simp [ExitStatus.code, faultless, run]

section

variable {segmentation : Segmentation} {fuel : Nat} {clock : Clock} {name source : String}
  {content : String → Except ReadError (List UInt8)} {stdin : List UInt8}

/-- Without the flag the program runs the script. -/
theorem run_script (name_ne : name ≠ "--ast") (decoded : content name >>= decode = .ok source) :
    run segmentation fuel clock [name] content stdin =
      ((Session.start .unlimited clock).run segmentation fuel source).map fun after =>
        ⟨statusOf after.diagnostics, after.written, echo after⟩ := by
  have options_eq : Options.ofArguments? [name] = some ⟨false, some name⟩ := by
    simp [Options.ofArguments?, Options.take, name_ne]
  simp only [run, options_eq, runScript, decoded, process, Bool.false_eq_true, if_false]
  cases (Session.start .unlimited clock).run segmentation fuel source <;> rfl

/-- With the flag the program shows the outline of what is made of the script. -/
theorem run_outline (name_ne : name ≠ "--ast") (decoded : content name >>= decode = .ok source)
    {arguments : List String}
    (flagged : arguments = ["--ast", name] ∨ arguments = [name, "--ast"]) :
    run segmentation fuel clock arguments content stdin =
      .ok ⟨if faults segmentation source = [] then .success else .staticError,
        (Stmt.programText (programOf segmentation source) ++ "\n").toUTF8,
        told (faults segmentation source)⟩ := by
  have options_eq : Options.ofArguments? arguments = some ⟨true, some name⟩ := by
    rcases flagged with rfl | rfl <;> simp [Options.ofArguments?, Options.take, name_ne]
  have written_eq : (((Session.start .unlimited clock).parse segmentation source).2.write
      (Stmt.programText (programOf segmentation source) ++ "\n")).written
        = (Stmt.programText (programOf segmentation source) ++ "\n").toUTF8 :=
    (Session.written_write rfl _).trans ByteArray.empty_append
  have status_eq :
      statusOf ((Session.start .unlimited clock).parse segmentation source).2.diagnostics = if faults segmentation source = [] then .success else .staticError := by
    by_cases faultless : faults segmentation source = []
    · rw [Session.parse_of_faultless faultless, if_pos faultless]
      rfl
    · rw [statusOf, if_pos ((hadError_parse_start _ _).mpr faultless), if_neg faultless]
  simp only [run, options_eq, runScript, decoded, process, if_true]
  change Except.ok (Outcome.mk
    (statusOf ((Session.start .unlimited clock).parse segmentation source).2.diagnostics)
    (((Session.start .unlimited clock).parse segmentation source).2.write
      (Stmt.programText (programOf segmentation source) ++ "\n")).written
    (echo ((Session.start .unlimited clock).parse segmentation source).2)) = _
  rw [status_eq, written_eq, echo_eq, reported_parse_start]

/-- A script that can be read either does not come to an end or gives what is found wrong with it
and what it prints, with the status for that; no jump gets out of it. With the flag, before or after
the name, the program always shows the outline, and the status says whether there are faults. The
faults are those of scanning and then those of parsing. -/
theorem exit_status_law (name_ne : name ≠ "--ast")
    (decoded : content name >>= decode = .ok source) :
    (∀ outcome, run segmentation fuel clock [name] content stdin = .ok outcome ↔
      ScriptGives segmentation fuel clock source outcome) ∧
    (∀ outcome, run segmentation fuel clock [name] content stdin = .ok outcome →
      outcome.status.code ∈ [65, 70, 0] ∧
      (outcome.status.code = 65 ↔ faults segmentation source ≠ []) ∧
      (outcome.status.code = 70 ↔ faults segmentation source = [] ∧ ∃ error after,
        Interpreter.interpret fuel (programOf segmentation source) (.start .unlimited clock)
          = .error (.error error) after) ∧
      (outcome.status.code = 0 ↔ faults segmentation source = [] ∧ ∃ after,
        Interpreter.interpret fuel (programOf segmentation source) (.start .unlimited clock)
          = .ok () after)) ∧
    (∀ completion,
      run segmentation fuel clock [name] content stdin ≠ .error (.strayJump completion)) ∧
    (∀ arguments, arguments = ["--ast", name] ∨ arguments = [name, "--ast"] →
      run segmentation fuel clock arguments content stdin =
        .ok ⟨if faults segmentation source = [] then .success else .staticError,
          (Stmt.programText (programOf segmentation source) ++ "\n").toUTF8,
          told (faults segmentation source)⟩) := by
  have gives_iff : ∀ outcome, run segmentation fuel clock [name] content stdin = .ok outcome ↔
      ScriptGives segmentation fuel clock source outcome := by
    intro outcome
    rw [run_script name_ne decoded, scriptGives_iff]
    cases (Session.start .unlimited clock).run segmentation fuel source with
    | ok after => simp [Except.map, eq_comm]
    | error reason => simp [Except.map]
  refine ⟨gives_iff, ?_, ?_, fun arguments => run_outline name_ne decoded⟩
  · intro outcome ended
    have gives := (gives_iff outcome).mp ended
    refine ⟨?_, gives.code_iff⟩
    cases gives <;> simp [ExitStatus.code]
  · intro completion aborted
    rw [run_script name_ne decoded] at aborted
    cases ended : (Session.start .unlimited clock).run segmentation fuel source with
    | ok after =>
        rw [ended] at aborted
        cases aborted
    | error reason =>
        rw [ended] at aborted
        cases aborted
        exact Session.run_ne_strayJump (.start _ _) fuel source completion ended

end

/-- A script that prints, and then fails. -/
def failingScript : String :=
  "print \"x\"; missing;"

/-- What a script prints before its runtime error stays. -/
theorem exit_status_law_failure :
    ∃ outcome,
      run .graphemes 9 (.ofReadings fun _ => 0) ["script"]
          (fun _ => .ok (bytesOf failingScript)) [] = .ok outcome ∧
        outcome.status.code = 70 ∧ outcome.stdout = "x\n".toUTF8 ∧
        ScriptGives .graphemes 9 (.ofReadings fun _ => 0) failingScript outcome := by
  have fails : (run .graphemes 9 (.ofReadings fun _ => 0) ["script"]
      (fun _ => .ok (bytesOf failingScript)) []).toOption.any (fun outcome =>
        outcome.status.code = 70 ∧ outcome.stdout = "x\n".toUTF8) = true := by
    decide +kernel
  obtain ⟨outcome, ended, shown⟩ := Session.exists_ok_of_any fails
  obtain ⟨code_eq, stdout_eq⟩ := of_decide_eq_true shown
  have law := @exit_status_law .graphemes 9 (.ofReadings fun _ => 0) "script" failingScript
    (fun _ => .ok (bytesOf failingScript)) [] (by decide) (decode_bytesOf failingScript)
  exact ⟨outcome, ended, code_eq, stdout_eq, (law.1 outcome).mp ended⟩

end Scriptlet.CommandLine
