import Scriptlet.Proofs.Session.Placement

/-!
# What a session reports

Scanning and parsing report static errors, evaluation reports the runtime error that ends it, and a
reset forgets both. The recorded diagnostics, the flags and the interpreter are changed in different
places; here they are shown to stay in step over any requests in any order. A source with a static
error, and any source after it up to the next reset, only adds to the diagnostics. A runtime error
keeps no later source from being evaluated.
-/

namespace Scriptlet

open Text (Segmentation)

namespace Diagnostics

/-- The flags say which kinds of diagnostics are recorded. -/
structure InStep (diagnostics : Diagnostics) : Prop where
  hadError_iff : diagnostics.hadError = true ↔
    ∃ diagnostic ∈ diagnostics.reported, diagnostic.kind = .static
  hadRuntimeError_iff : diagnostics.hadRuntimeError = true ↔
    ∃ diagnostic ∈ diagnostics.reported, diagnostic.kind = .runtime

theorem inStep_empty : empty.InStep := by
  constructor <;> simp [empty]

theorem InStep.report {diagnostics : Diagnostics} (inStep : diagnostics.InStep)
    (diagnostic : Diagnostic) : (diagnostics.report diagnostic).InStep := by
  constructor
  · simp [Diagnostics.report, inStep.hadError_iff, or_and_right, exists_or]
  · simp [Diagnostics.report, inStep.hadRuntimeError_iff, or_and_right, exists_or]

theorem InStep.reportAll {diagnostics : Diagnostics} (inStep : diagnostics.InStep)
    (added : List Diagnostic) : (diagnostics.reportAll added).InStep := by
  induction added generalizing diagnostics with
  | nil => exact inStep
  | cons diagnostic added ih => exact ih (inStep.report diagnostic)

theorem reported_reportAll (diagnostics : Diagnostics) (added : List Diagnostic) :
    (diagnostics.reportAll added).reported = diagnostics.reported ++ added := by
  induction added generalizing diagnostics with
  | nil => exact (List.append_nil _).symm
  | cons diagnostic added ih =>
      calc ((diagnostics.report diagnostic).reportAll added).reported
          = diagnostics.reported ++ [diagnostic] ++ added := ih (diagnostics.report diagnostic)
        _ = diagnostics.reported ++ diagnostic :: added := List.append_cons .. |>.symm

end Diagnostics

namespace Session

/-- The diagnostics of a source: those of scanning it and then those of parsing it. -/
def faults (segmentation : Segmentation) (source : String) : List Diagnostic :=
  staticDiagnostics (Scan.ofString segmentation source)
    (Parser.parseProgram (Scan.ofString segmentation source).tokens.body).2

/-- What a session can be asked to do. -/
inductive Request where
  | run (source : String)
  | parse (source : String)
  | reset

/-- What becomes of a session by a request. A run that does not finish has no answer. -/
inductive Answers (segmentation : Segmentation) : Session → Request → Session → Prop where
  | run {session after : Session} {source : String} {fuel : Nat}
      (finished : session.run segmentation fuel source = .ok after) :
      Answers segmentation session (.run source) after
  | parse (session : Session) (source : String) :
      Answers segmentation session (.parse source) (session.parse segmentation source).2
  | reset (session : Session) : Answers segmentation session .reset session.reset

/-- What becomes of a session by requests, one after the other. -/
inductive Serves (segmentation : Segmentation) : Session → List Request → Session → Prop where
  | nil (session : Session) : Serves segmentation session [] session
  | cons {session middle after : Session} {request : Request} {requests : List Request}
      (first : Answers segmentation session request middle)
      (others : Serves segmentation middle requests after) :
      Serves segmentation session (request :: requests) after

variable {segmentation : Segmentation} {session after : Session} {source : String}

theorem kind_of_mem_faults {diagnostic : Diagnostic}
    (mem : diagnostic ∈ faults segmentation source) : diagnostic.kind = .static := by
  rcases List.mem_append.mp mem with lexical | syntactic
  · obtain ⟨error, -, rfl⟩ := List.mem_map.mp lexical
    rfl
  · obtain ⟨error, -, rfl⟩ := List.mem_map.mp syntactic
    rfl

theorem faults_eq_nil
    (none_static : ∀ diagnostic ∈ faults segmentation source, diagnostic.kind ≠ .static) :
    faults segmentation source = [] := by
  rw [List.eq_nil_iff_forall_not_mem]
  intro diagnostic mem
  exact none_static diagnostic mem (kind_of_mem_faults mem)

/-- Reading a source does nothing but report what is wrong with it. -/
theorem parse_eq (session : Session) (source : String) :
    session.parse segmentation source =
      (programOf segmentation source,
        ⟨session.interpreter, session.diagnostics.reportAll (faults segmentation source)⟩) :=
  rfl

theorem hadError_parse :
    (session.parse segmentation source).2.diagnostics.hadError =
      (session.diagnostics.hadError || (faults segmentation source).any (·.kind = .static)) := by
  rw [parse_eq]
  exact Diagnostics.hadError_reportAll _ _

/-- Reading a source without faults reports nothing. -/
theorem parse_of_faultless (faultless : faults segmentation source = []) :
    session.parse segmentation source = (programOf segmentation source, session) := by
  rw [parse_eq, faultless]
  rfl

/-- A source without faults is evaluated unless a static error came before it. -/
theorem run_of_faultless (faultless : faults segmentation source = [])
    (unreported : session.diagnostics.hadError = false) (fuel : Nat) :
    session.run segmentation fuel source
      = session.interpret fuel (programOf segmentation source) := by
  have parsed : session.parse segmentation source = (programOf segmentation source, session) :=
    parse_of_faultless faultless
  have accepted : (session.parse segmentation source).2.diagnostics.hadError = false := by
    rw [parsed]
    exact unreported
  rw [run_of_no_fault accepted, parsed]

/-- A source is accepted only if no static error came before it and there is none in it. -/
theorem faultless_of_accepted
    (accepted : (session.parse segmentation source).2.diagnostics.hadError = false) :
    session.diagnostics.hadError = false ∧ faults segmentation source = [] := by
  rw [hadError_parse, Bool.or_eq_false_iff] at accepted
  refine ⟨accepted.1, faults_eq_nil ?_⟩
  intro diagnostic mem isStatic
  exact List.any_eq_false.mp accepted.2 diagnostic mem (decide_eq_true isStatic)

theorem run_of_accepted
    (accepted : (session.parse segmentation source).2.diagnostics.hadError = false) (fuel : Nat) :
    session.run segmentation fuel source
      = session.interpret fuel (programOf segmentation source) :=
  have ⟨unreported, faultless⟩ := faultless_of_accepted accepted
  run_of_faultless faultless unreported fuel

/-- A run that finishes only reports the faults of the source, or evaluates it. -/
theorem run_reports {fuel : Nat} (finished : session.run segmentation fuel source = .ok after) :
    after = (session.parse segmentation source).2 ∨
      session.interpret fuel (programOf segmentation source) = .ok after := by
  cases fault : (session.parse segmentation source).2.diagnostics.hadError with
  | true =>
      rw [run_of_fault fault] at finished
      cases finished
      exact .inl rfl
  | false =>
      rw [run_of_accepted fault] at finished
      exact .inr finished

/-- A run can be evaluated to see that it finishes, and how. -/
theorem exists_ok_of_any {α : Type} {result : Except Abort α} {holds : α → Bool}
    (any : result.toOption.any holds = true) : ∃ after, result = .ok after ∧ holds after = true := by
  cases result with
  | ok after => exact ⟨after, rfl, any⟩
  | error reason => cases any

theorem Answers.inStep {request : Request} (answers : Answers segmentation session request after)
    (inStep : session.diagnostics.InStep) : after.diagnostics.InStep := by
  cases answers with
  | run finished =>
      rcases run_reports finished with rfl | interpreted
      · exact inStep.reportAll _
      · rcases interpret_cases interpreted with ⟨state, -, rfl⟩ | ⟨error, state, -, rfl⟩
        · exact inStep
        · exact inStep.report error.diagnostic
  | parse => exact inStep.reportAll _
  | reset => exact Diagnostics.inStep_empty

theorem Serves.inStep {requests : List Request}
    (served : Serves segmentation session requests after)
    (inStep : session.diagnostics.InStep) : after.diagnostics.InStep := by
  induction served with
  | nil session => exact inStep
  | cons first _ ih => exact ih (first.inStep inStep)

/-- A run adds all the faults of its source, or nothing, or a runtime error. -/
theorem reported_run {fuel : Nat} (finished : session.run segmentation fuel source = .ok after) :
    ∃ added, after.diagnostics.reported = session.diagnostics.reported ++ added ∧
      ((added = faults segmentation source ∧ ∀ diagnostic ∈ added, diagnostic.kind = .static) ∨
        added = [] ∨ ∃ diagnostic : Diagnostic, added = [diagnostic] ∧ diagnostic.kind = .runtime) := by
  rcases run_reports finished with rfl | interpreted
  · exact ⟨_, Diagnostics.reported_reportAll _ _, .inl ⟨rfl, fun _ => kind_of_mem_faults⟩⟩
  · rcases interpret_cases interpreted with ⟨state, -, rfl⟩ | ⟨error, state, -, rfl⟩
    · exact ⟨[], (List.append_nil _).symm, .inr (.inl rfl)⟩
    · exact ⟨_, rfl, .inr (.inr ⟨error.diagnostic, rfl, rfl⟩)⟩

theorem Answers.reported_prefix {request : Request}
    (answers : Answers segmentation session request after) (kept : request ≠ .reset) :
    session.diagnostics.reported <+: after.diagnostics.reported := by
  cases answers with
  | run finished =>
      obtain ⟨added, reported_eq, -⟩ := reported_run finished
      exact ⟨added, reported_eq.symm⟩
  | parse => exact ⟨_, (Diagnostics.reported_reportAll _ _).symm⟩
  | reset => exact absurd rfl kept

theorem Serves.reported_prefix {requests : List Request}
    (served : Serves segmentation session requests after) (kept : .reset ∉ requests) :
    session.diagnostics.reported <+: after.diagnostics.reported := by
  induction served with
  | nil session => exact List.prefix_rfl
  | cons first _ ih =>
      rw [List.mem_cons, not_or] at kept
      exact (first.reported_prefix (Ne.symm kept.1)).trans (ih kept.2)

/-- Whatever a session was asked before, its flags say what is recorded; what is recorded is only
added to until the next reset; a run adds faults of its source, or nothing, or one runtime error;
reading a source, and running it during or after a static error, leaves the interpreter alone; and
a source is evaluated if no static error was recorded, whatever runtime errors were. -/
theorem reports_stay_in_step {interpreter : Interpreter} {requests : List Request}
    (served : Serves segmentation ⟨interpreter, .empty⟩ requests session) :
    session.diagnostics.InStep ∧
    (∀ later after, .reset ∉ later → Serves segmentation session later after →
      session.diagnostics.reported <+: after.diagnostics.reported) ∧
    session.reset = ⟨session.interpreter, .empty⟩ ∧
    (∀ source after, Answers segmentation session (.run source) after →
      ∃ added, after.diagnostics.reported = session.diagnostics.reported ++ added ∧
        ((added = faults segmentation source ∧ ∀ diagnostic ∈ added, diagnostic.kind = .static) ∨
          added = [] ∨
          ∃ diagnostic : Diagnostic, added = [diagnostic] ∧ diagnostic.kind = .runtime)) ∧
    (∀ source after, Answers segmentation session (.parse source) after →
      after.interpreter = session.interpreter ∧
        after.diagnostics.reported = session.diagnostics.reported ++ faults segmentation source) ∧
    (∀ source,
      (∃ diagnostic ∈ session.diagnostics.reported ++ faults segmentation source,
        diagnostic.kind = .static) →
      ∃ after, after.interpreter = session.interpreter ∧
        after.diagnostics.reported = session.diagnostics.reported ++ faults segmentation source ∧
        ∀ fuel, session.run segmentation fuel source = .ok after) ∧
    (∀ source,
      (∀ diagnostic ∈ session.diagnostics.reported ++ faults segmentation source,
        diagnostic.kind = .runtime) →
      ∀ fuel, session.run segmentation fuel source
        = session.interpret fuel (programOf segmentation source)) := by
  have inStep := served.inStep Diagnostics.inStep_empty
  refine ⟨inStep, ?_, rfl, ?_, ?_, ?_, ?_⟩
  · intro later after kept serves
    exact serves.reported_prefix kept
  · rintro source after ⟨finished⟩
    exact reported_run finished
  · rintro source after ⟨⟩
    exact ⟨rfl, Diagnostics.reported_reportAll _ _⟩
  · rintro source ⟨diagnostic, mem, isStatic⟩
    have fault : (session.parse segmentation source).2.diagnostics.hadError = true := by
      rw [← Diagnostics.reported_reportAll] at mem
      exact (inStep.reportAll (faults segmentation source)).hadError_iff.mpr
        ⟨diagnostic, mem, isStatic⟩
    exact ⟨(session.parse segmentation source).2, rfl, Diagnostics.reported_reportAll _ _,
      run_of_fault fault⟩
  · intro source onlyRuntime
    -- Faults are static, so a source whose diagnostics are all of runtime errors has none.
    have none_static : ∀ diagnostic ∈ session.diagnostics.reported ++ faults segmentation source,
        diagnostic.kind ≠ .static := by
      intro diagnostic mem
      simp [onlyRuntime diagnostic mem]
    rw [List.forall_mem_append] at none_static
    have accepted : session.diagnostics.hadError = false := by
      rw [Bool.eq_false_iff, ne_eq, inStep.hadError_iff]
      rintro ⟨diagnostic, mem, isStatic⟩
      exact none_static.1 diagnostic mem isStatic
    exact run_of_faultless (faults_eq_nil none_static.2) accepted

/-- A runtime error does not keep the next source from running, a static one does. -/
theorem reports_stay_in_step_after_errors :
    ∃ failed : Session,
      Serves .graphemes (start .unlimited (.ofReadings fun _ => 0)) [.run "print missing;"] failed ∧
      (∃ diagnostic ∈ failed.diagnostics.reported, diagnostic.kind = .runtime) ∧
      (∀ fuel, failed.run .graphemes fuel "print 1;"
        = failed.interpret fuel (programOf .graphemes "print 1;")) ∧
      ∃ after, after.interpreter = failed.interpreter ∧
        ∀ fuel, (failed.parse .graphemes "var;").2.run .graphemes fuel "print 1;" = .ok after := by
  have fails : ((start .unlimited (.ofReadings fun _ => 0)).run .graphemes 3
      "print missing;").toOption.any (fun failed =>
        (∃ diagnostic ∈ failed.diagnostics.reported, diagnostic.kind = .runtime) ∧
          ∀ diagnostic ∈ failed.diagnostics.reported, diagnostic.kind = .runtime) = true := by
    decide +kernel
  have faultless : faults .graphemes "print 1;" = [] := by decide +kernel
  have faulty : ∃ diagnostic ∈ faults .graphemes "var;", diagnostic.kind = .static := by
    decide +kernel
  obtain ⟨failed, finished, recorded⟩ := exists_ok_of_any fails
  obtain ⟨someRuntime, onlyRuntime⟩ := of_decide_eq_true recorded
  have served : Serves .graphemes (start .unlimited (.ofReadings fun _ => 0))
      [.run "print missing;"] failed := .cons (.run finished) (.nil failed)
  have refusing : Serves .graphemes (start .unlimited (.ofReadings fun _ => 0))
      [.run "print missing;", .parse "var;"] (failed.parse .graphemes "var;").2 :=
    .cons (.run finished) (.cons (.parse failed "var;") (.nil _))
  refine ⟨failed, served, someRuntime, ?_, ?_⟩
  · apply (reports_stay_in_step served).2.2.2.2.2.2 "print 1;"
    rw [faultless, List.append_nil]
    exact onlyRuntime
  · obtain ⟨diagnostic, mem, isStatic⟩ := faulty
    have staticNow : diagnostic ∈ (failed.parse .graphemes "var;").2.diagnostics.reported := by
      rw [parse_eq, Diagnostics.reported_reportAll]
      exact List.mem_append_right _ mem
    obtain ⟨after, untouched, -, refused⟩ :=
      (reports_stay_in_step refusing).2.2.2.2.2.1 "print 1;"
        ⟨diagnostic, List.mem_append_left _ staticNow, isStatic⟩
    exact ⟨after, untouched, refused⟩

end Session

end Scriptlet
