import Scriptlet.Proofs.Evaluation.ErrorTokens
import Scriptlet.Proofs.Session.Reports

/-!
# The tokens of runtime errors in a session

A function that a source declares can be called by any later source, so a runtime error can be
reported at a token of any source evaluated so far. It is reported at no other token, and at one of
a kind that fits the error.
-/

namespace Scriptlet

open Text (Segmentation)
open Grammar Evaluation

/-- A token that was scanned in one of some sources. -/
def IsTokenOf (segmentation : Segmentation) (sources : List String) (token : Token) : Prop :=
  ∃ source ∈ sources, token ∈ (Scan.ofString segmentation source).tokens.body

variable {segmentation : Segmentation}

/-- The program made of a source keeps only tokens of the source, also if it has faults. -/
theorem tokensHold_programOf {source : String} {onToken : Token → Prop}
    (tokens_hold : ∀ token ∈ (Scan.ofString segmentation source).tokens.body, onToken token) :
    ∀ statement ∈ programOf segmentation source, statement.TokensHold onToken := by
  have derives : DerivesProgram (fun _ => True) (Scan.ofString segmentation source).tokens.body
      (programOf segmentation source) := Parser.derivesProgram_parseProgram fun _ _ => trivial
  exact derives.tokensHold tokens_hold

namespace Session

/-- Sessions that have evaluated some sources, the latest one first. They may have refused or only
read others. -/
inductive Evaluated (segmentation : Segmentation) : List String → Session → Prop where
  | start (output : Output) (clock : Clock) : Evaluated segmentation [] (.start output clock)
  | run {before after : Session} {sources : List String} {source : String} {fuel : Nat}
      (evaluated : Evaluated segmentation sources before)
      (accepted : (before.parse segmentation source).2.diagnostics.hadError = false)
      (finished : before.run segmentation fuel source = .ok after) :
      Evaluated segmentation (source :: sources) after
  | refuse {before after : Session} {sources : List String} {source : String} {fuel : Nat}
      (evaluated : Evaluated segmentation sources before)
      (fault : (before.parse segmentation source).2.diagnostics.hadError = true)
      (finished : before.run segmentation fuel source = .ok after) :
      Evaluated segmentation sources after
  | parse {before : Session} {sources : List String} (source : String)
      (evaluated : Evaluated segmentation sources before) :
      Evaluated segmentation sources (before.parse segmentation source).2
  | reset {before : Session} {sources : List String}
      (evaluated : Evaluated segmentation sources before) :
      Evaluated segmentation sources before.reset
  | write {before : Session} {sources : List String} (text : String)
      (evaluated : Evaluated segmentation sources before) :
      Evaluated segmentation sources (before.write text)

/-- The tokens of the functions in a session, and of the errors that it has reported, have a
property. -/
structure Located (onToken : Token → Prop) (session : Session) : Prop where
  functions : session.interpreter.Admitted (FunctionDeclaration.TokensHold onToken)
  errors : ∀ diagnostic ∈ session.diagnostics.reported, diagnostic.kind = .runtime →
    ∃ error : RuntimeError, diagnostic = error.diagnostic ∧ error.IsAt onToken

variable {session after : Session} {onToken : Token → Prop}

/-- Reading a source reports no runtime error. -/
theorem Located.parse (located : session.Located onToken) (source : String) :
    (session.parse segmentation source).2.Located onToken := by
  refine ⟨located.functions, ?_⟩
  intro diagnostic mem isRuntime
  rw [parse_eq, Diagnostics.reported_reportAll] at mem
  rcases List.mem_append.mp mem with earlier | fault
  · exact located.errors diagnostic earlier isRuntime
  · rw [kind_of_mem_faults fault] at isRuntime
    cases isRuntime

/-- Evaluating a source reports at most an error at its tokens or at those of earlier functions. -/
theorem Located.interpret {fuel : Nat} {program : List Stmt} (located : session.Located onToken)
    (hold : ∀ statement ∈ program, statement.TokensHold onToken)
    (finished : session.interpret fuel program = .ok after) : after.Located onToken := by
  have ensures := Interpreter.located_interpret fuel hold
  rcases interpret_cases finished with ⟨state, run, rfl⟩ | ⟨error, state, run, rfl⟩
  · exact ⟨(ensures.of_ok located.functions run).1, located.errors⟩
  · have outcome := ensures.of_error located.functions run
    refine ⟨outcome.1, ?_⟩
    intro diagnostic mem isRuntime
    rcases List.mem_append.mp mem with earlier | latest
    · exact located.errors diagnostic earlier isRuntime
    · exact ⟨error, List.mem_singleton.mp latest, outcome.2⟩

/-- The property is fixed for all sources at once, so that it need not be weakened when a source is
added. -/
theorem Evaluated.located {sources : List String}
    (evaluated : session.Evaluated segmentation sources)
    (hold : ∀ source ∈ sources, ∀ token ∈ (Scan.ofString segmentation source).tokens.body,
      onToken token) :
    session.Located onToken := by
  induction evaluated with
  | start output clock =>
      refine ⟨Interpreter.admitted_start output clock, ?_⟩
      rintro diagnostic ⟨⟩
  | @run before after sources source fuel _ accepted finished ih =>
      rw [List.forall_mem_cons] at hold
      rw [run_of_accepted accepted] at finished
      exact (ih hold.2).interpret (tokensHold_programOf hold.1) finished
  | @refuse before after sources source fuel _ fault finished ih =>
      rw [run_of_fault fault] at finished
      cases finished
      exact (ih hold).parse source
  | parse source _ ih => exact (ih hold).parse source
  | reset _ ih =>
      refine ⟨(ih hold).functions, ?_⟩
      rintro diagnostic ⟨⟩
  | write text _ ih => exact ⟨(ih hold).functions, (ih hold).errors⟩

/-- Every runtime error that a session has reported, and the one that ends the next source that it
evaluates, is reported at a token of a source that it has evaluated, on the line of that token. The
token is of a kind that fits the error, and it is the variable that the message names if that is
undefined. -/
theorem runtime_errors_located {sources : List String}
    (evaluated : session.Evaluated segmentation sources) :
    (∀ diagnostic ∈ session.diagnostics.reported, diagnostic.kind = .runtime →
      ∃ error : RuntimeError, diagnostic = error.diagnostic ∧
        diagnostic.line = error.token.line ∧ IsTokenOf segmentation sources error.token ∧
        error.token.kind ∈ error.kinds ∧
        ∀ name, error = .undefinedVariable name →
          diagnostic.message = "Undefined variable '" ++ error.token.lexeme ++ "'.") ∧
    (∀ source fuel error state,
      (session.parse segmentation source).2.diagnostics.hadError = false →
      Interpreter.interpret fuel (programOf segmentation source) session.interpreter
          = .error (.error error) state →
      session.run segmentation fuel source
          = .ok ⟨state, session.diagnostics.report error.diagnostic⟩ ∧
        IsTokenOf segmentation (source :: sources) error.token ∧
        error.token.kind ∈ error.kinds) := by
  constructor
  · intro diagnostic mem isRuntime
    have located : session.Located (IsTokenOf segmentation sources) :=
      evaluated.located fun source source_mem token token_mem => ⟨source, source_mem, token_mem⟩
    obtain ⟨error, rfl, isAt⟩ := located.errors diagnostic mem isRuntime
    refine ⟨error, rfl, rfl, isAt.token_holds, isAt.kind_mem, ?_⟩
    rintro name rfl
    rfl
  · intro source fuel error state accepted run
    have located : session.Located (IsTokenOf segmentation (source :: sources)) :=
      evaluated.located fun earlier earlier_mem token token_mem =>
        ⟨earlier, List.mem_cons_of_mem _ earlier_mem, token_mem⟩
    have hold : ∀ statement ∈ programOf segmentation source,
        statement.TokensHold (IsTokenOf segmentation (source :: sources)) :=
      tokensHold_programOf fun token token_mem => ⟨source, List.mem_cons_self, token_mem⟩
    have isAt : error.IsAt (IsTokenOf segmentation (source :: sources)) :=
      ((Interpreter.located_interpret fuel hold).of_error located.functions run).2
    refine ⟨?_, isAt.token_holds, isAt.kind_mem⟩
    rw [run_of_accepted accepted]
    exact interpret_of_error run

/-- The error is in a function of an earlier source, and on its line. -/
theorem runtime_errors_located_earlier :
    ∃ declared failed : Session,
      (start .unlimited (.ofReadings fun _ => 0)).run .graphemes 3 "fun f()\n{ return missing; }"
          = .ok declared ∧
        declared.run .graphemes 9 "f();" = .ok failed ∧
        (∃ diagnostic ∈ failed.diagnostics.reported, diagnostic.kind = .runtime) ∧
        ∀ diagnostic ∈ failed.diagnostics.reported, diagnostic.kind = .runtime →
          ∃ error : RuntimeError, diagnostic = error.diagnostic ∧
            diagnostic.line = error.token.line ∧
            IsTokenOf .graphemes ["f();", "fun f()\n{ return missing; }"] error.token ∧
            error.token.kind ∈ error.kinds := by
  have runs : ((start .unlimited (.ofReadings fun _ => 0)).run .graphemes 3
      "fun f()\n{ return missing; }").toOption.any (fun declared =>
        (declared.parse .graphemes "f();").2.diagnostics.hadError = false ∧
          (declared.run .graphemes 9 "f();").toOption.any fun failed =>
            ∃ diagnostic ∈ failed.diagnostics.reported, diagnostic.kind = .runtime) = true := by
    decide +kernel
  have declares : ((start .unlimited (.ofReadings fun _ => 0)).parse .graphemes
      "fun f()\n{ return missing; }").2.diagnostics.hadError = false := by
    decide +kernel
  obtain ⟨declared, first, later⟩ := exists_ok_of_any runs
  obtain ⟨accepted, fails⟩ := of_decide_eq_true later
  obtain ⟨failed, second, recorded⟩ := exists_ok_of_any fails
  have evaluated : failed.Evaluated .graphemes ["f();", "fun f()\n{ return missing; }"] :=
    .run (.run (.start _ _) declares first) accepted second
  refine ⟨declared, failed, first, second, of_decide_eq_true recorded, ?_⟩
  intro diagnostic mem isRuntime
  obtain ⟨error, diagnostic_eq, line_eq, isToken, kind_mem, -⟩ :=
    (runtime_errors_located evaluated).1 diagnostic mem isRuntime
  exact ⟨error, diagnostic_eq, line_eq, isToken, kind_mem⟩

end Session

end Scriptlet
