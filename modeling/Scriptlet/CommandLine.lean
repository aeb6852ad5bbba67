import Scriptlet.Session
import Scriptlet.Stmt.Outline

/-!
# The command line

With a script as its argument the program runs the script; without one it prompts for lines and
runs each of them on one session. A flag shows outlines in place of running anything. The exit
status tells what went wrong with a script.
-/

namespace Scriptlet.CommandLine

open Text (Segmentation)

/-- How the program ends. -/
inductive ExitStatus where
  | success
  | usageError
  | staticError
  | runtimeError
  | inputError
  deriving DecidableEq, Repr

/-- The number that a status is told as. -/
def ExitStatus.code : ExitStatus → Nat
  | .success => 0
  | .usageError => 64
  | .staticError => 65
  | .runtimeError => 70
  | .inputError => 74

/-- Why an input cannot be read. -/
inductive ReadError where
  | notFound
  | isDirectory
  | invalidText
  | other (message : String)
  deriving DecidableEq, Repr

/-- What is told of an input that cannot be read. -/
def ReadError.message : ReadError → String
  | .notFound => "No such file or directory (os error 2)"
  | .isDirectory => "Is a directory (os error 21)"
  | .invalidText => "stream did not contain valid UTF-8"
  | .other message => message

/-- What a run of the program leaves: how it ends, and what was written on both outputs. -/
structure Outcome where
  status : ExitStatus
  stdout : ByteArray
  stderr : String

/-- What the arguments ask for. -/
structure Options where
  showOutline : Bool
  script : Option String
  deriving DecidableEq, Repr

/-- Takes one more argument; there can be only one script. -/
def Options.take (options : Options) (argument : String) : Option Options :=
  if argument = "--ast" then some { options with showOutline := true }
  else if options.script.isNone then some { options with script := some argument }
  else none

/-- What all arguments ask for, unless they are wrong. -/
def Options.ofArguments? (arguments : List String) : Option Options :=
  arguments.foldlM Options.take ⟨false, none⟩

/-- What is told about wrong arguments. -/
def usage : String :=
  "Only one script is supported\nUsage: toy [--ast] [script]\n"

/-- What is told about an input that cannot be read. -/
def readFailure (name : String) (error : ReadError) : String :=
  "Reading " ++ name ++ ": " ++ error.message ++ "\n"

/-- The text that bytes encode. -/
def decode (bytes : List UInt8) : Except ReadError String :=
  match String.fromUTF8? ⟨bytes.toArray⟩ with
  | some text => .ok text
  | none => .error .invalidText

/-- The diagnostics of a session, one a line. -/
def echo (session : Session) : String :=
  String.join (session.diagnostics.texts.map (· ++ "\n"))

/-- Runs a source on a session, or shows its outline. -/
def process (segmentation : Segmentation) (fuel : Nat) (showOutline : Bool) (session : Session)
    (source : String) : Except Abort Session :=
  if showOutline then
    let (statements, session) := session.parse segmentation source
    .ok (session.write (Stmt.programText statements ++ "\n"))
  else session.run segmentation fuel source

/-- The status that diagnostics lead to. A static error counts before a runtime error. -/
def statusOf (diagnostics : Diagnostics) : ExitStatus :=
  if diagnostics.hadError then .staticError
  else if diagnostics.hadRuntimeError then .runtimeError
  else .success

/-- Runs a script or shows its outline. -/
def runScript (segmentation : Segmentation) (fuel : Nat) (showOutline : Bool) (session : Session)
    (name : String) (content : Except ReadError (List UInt8)) : Except Abort Outcome :=
  match content >>= decode with
  | .error error => .ok ⟨.inputError, session.written, readFailure name error⟩
  | .ok source => do
      let session ← process segmentation fuel showOutline session source
      pure ⟨statusOf session.diagnostics, session.written, echo session⟩

/-- The lines of an input, each with the line feed that ends it. -/
def splitLines : List UInt8 → List (List UInt8)
  | [] => []
  | byte :: following =>
      if byte = 10 then [byte] :: splitLines following
      else
        match splitLines following with
        | [] => [[byte]]
        | line :: lines => (byte :: line) :: lines

/-- A line without the carriage returns and line feeds at its end. -/
def trimEnd (line : String) : String :=
  let isEnd (char : Char) : Bool := char = '\r' || char = '\n'
  String.ofList ((line.toList.reverse.dropWhile isEnd).reverse)

/-- A dialogue: the session, and what was told on the error output. -/
structure Dialogue where
  session : Session
  stderr : String

namespace Dialogue

/-- Writes the prompt. -/
def prompt (dialogue : Dialogue) : Dialogue :=
  { dialogue with session := dialogue.session.write "> " }

/-- Ends with a status. -/
def close (dialogue : Dialogue) (status : ExitStatus) : Outcome :=
  ⟨status, dialogue.session.written, dialogue.stderr⟩

/-- Runs one line. Its diagnostics are told and forgotten. -/
def feed (segmentation : Segmentation) (fuel : Nat) (showOutline : Bool) (dialogue : Dialogue)
    (line : String) : Except Abort Dialogue := do
  let session ← process segmentation fuel showOutline dialogue.session line
  pure ⟨session.reset, dialogue.stderr ++ echo session⟩

/-- Answers one line of input after the prompt. An empty line, or one that is no text, ends the
dialogue. -/
def answer (segmentation : Segmentation) (fuel : Nat) (showOutline : Bool) (dialogue : Dialogue)
    (line : List UInt8) : Except Abort (Outcome ⊕ Dialogue) :=
  match decode line with
  | .error error =>
      let told := { dialogue with stderr := dialogue.stderr ++ readFailure "stdin" error }
      .ok (.inl (told.close .inputError))
  | .ok text =>
      let line := trimEnd text
      if line = "" then .ok (.inl (dialogue.close .success))
      else .inr <$> dialogue.feed segmentation fuel showOutline line

/-- Prompts for lines until one ends the dialogue or there is none left. -/
def run (segmentation : Segmentation) (fuel : Nat) (showOutline : Bool) (dialogue : Dialogue) :
    List (List UInt8) → Except Abort Outcome
  | [] => .ok (dialogue.prompt.close .success)
  | line :: lines => do
      match ← dialogue.prompt.answer segmentation fuel showOutline line with
      | .inl outcome => pure outcome
      | .inr dialogue => dialogue.run segmentation fuel showOutline lines

end Dialogue

/-- Runs the program: its arguments, the files by name, and the bytes of its input. -/
def run (segmentation : Segmentation) (fuel : Nat) (clock : Clock) (arguments : List String)
    (content : String → Except ReadError (List UInt8)) (stdin : List UInt8) :
    Except Abort Outcome :=
  let session := Session.start .unlimited clock
  match Options.ofArguments? arguments with
  | none => .ok ⟨.usageError, session.written, usage⟩
  | some ⟨showOutline, some script⟩ =>
      runScript segmentation fuel showOutline session script (content script)
  | some ⟨showOutline, none⟩ =>
      Dialogue.run segmentation fuel showOutline ⟨session, ""⟩ (splitLines stdin)

end Scriptlet.CommandLine
