import Scriptlet.Interpreter.Evaluate
import Scriptlet.Parser.Statement

/-!
# Sessions

A session runs one source after another on one interpreter and collects diagnostics. Once a static
error was reported nothing is evaluated until the diagnostics are reset; a runtime error ends the
source that it happens in and keeps what that source did before.
-/

namespace Scriptlet

open Text (Segmentation)

/-- An interpreter with the diagnostics of what it was given. -/
structure Session where
  interpreter : Interpreter
  diagnostics : Diagnostics

namespace Session

/-- A session that has run nothing. -/
def start (output : Output) (clock : Clock) : Session :=
  ⟨.start output clock, .empty⟩

/-- The diagnostics of scanning, and then of parsing, a source. -/
def staticDiagnostics (scan : Scan) (errors : List SyntaxError) : List Diagnostic :=
  scan.errors.map .ofLexicalError ++ errors.map (·.diagnostic scan.tokens.last)

/-- Reads a source without running it: the statements in it, and the session that has reported what
is wrong with it. -/
def parse (segmentation : Segmentation) (session : Session) (source : String) :
    List Stmt × Session :=
  let scan := Scan.ofString segmentation source
  let (statements, errors) := Parser.parseProgram scan.tokens.body
  (statements, { session with
    diagnostics := session.diagnostics.reportAll (staticDiagnostics scan errors) })

/-- Runs statements and reports the runtime error that ends them, if one does. -/
def interpret (fuel : Nat) (session : Session) (statements : List Stmt) : Except Abort Session :=
  match Interpreter.interpret fuel statements session.interpreter with
  | .ok _ interpreter => .ok { session with interpreter }
  | .error (.error error) interpreter =>
      .ok ⟨interpreter, session.diagnostics.report error.diagnostic⟩
  | .error (.abort reason) _ => .error reason

/-- Runs a source, unless a static error has been reported in it or since the last reset. -/
def run (segmentation : Segmentation) (fuel : Nat) (session : Session) (source : String) :
    Except Abort Session :=
  let (statements, session) := session.parse segmentation source
  if session.diagnostics.hadError then .ok session else session.interpret fuel statements

/-- Forgets the diagnostics. -/
def reset (session : Session) : Session :=
  { session with diagnostics := .empty }

/-- Writes a text to the output of the programs. -/
def write (session : Session) (text : String) : Session :=
  { session with interpreter :=
    { session.interpreter with output := session.interpreter.output.write text } }

/-- Everything written so far. -/
def written (session : Session) : ByteArray :=
  session.interpreter.output.written

end Session

end Scriptlet
