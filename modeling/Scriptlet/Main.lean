import Std.Time.DateTime.Timestamp
import Scriptlet.CommandLine
import Scriptlet.Text.Grapheme

/-!
# The program

The only part that touches the world: it reads arguments, files and lines, and writes what the
command line gives. Programs see time pass from the moment at which a script or a line starts.
Sources are cut into extended grapheme clusters.
-/

namespace Scriptlet.Main

open CommandLine

/-- More fuel than a run can use up. -/
def fuel : Nat := Nat.pow 10 18

/-- The seconds that one reading of the clock is taken to last. -/
def tick : Float := 0.000001

/-- A clock that starts at the present time. -/
def presentClock : IO Clock := do
  let now ← Std.Time.Timestamp.now
  let start := Float.ofInt now.toNanosecondsSinceUnixEpoch.val / 1000000000
  pure (.ofReadings fun taken => start + taken.toFloat * tick)

/-- The bytes of a file, or why they cannot be read. -/
def contentOf (name : String) : IO (Except ReadError (List UInt8)) := do
  try
    pure (.ok (← IO.FS.readBinFile name).toList)
  catch
    | .noFileOrDirectory .. => pure (.error .notFound)
    | .inappropriateType .. => pure (.error .isDirectory)
    | failure => pure (.error (.other failure.toString))

/-- Reads bytes up to a line feed or the end of the input. -/
partial def readLine (input : IO.FS.Stream) (reversed : List UInt8) : IO (List UInt8) := do
  let bytes ← input.read 1
  match bytes.toList with
  | [] => pure reversed.reverse
  | byte :: _ =>
      if byte = 10 then pure (byte :: reversed).reverse else readLine input (byte :: reversed)

/-- Writes what came after earlier output. -/
def tell (stdout : ByteArray) (shown : Nat) (stderr : String) : IO Unit := do
  let output ← IO.getStdout
  output.write (stdout.extract shown stdout.size)
  output.flush
  IO.eprint stderr

/-- Tells why a run has no answer. -/
def surrender : IO UInt32 := do
  IO.eprintln "The program did not come to an end."
  pure 1

/-- Prompts, and answers lines until the dialogue ends. -/
partial def converse (showOutline : Bool) (dialogue : Dialogue) : IO UInt32 := do
  let shown := dialogue.session.written.size
  let dialogue := dialogue.prompt
  tell dialogue.session.written shown ""
  let line ← readLine (← IO.getStdin) []
  if line.isEmpty then pure (dialogue.close .success).status.code.toUInt32
  else
    let shown := dialogue.session.written.size
    let clock ← presentClock
    let dialogue := { dialogue with
      session.interpreter.clock := clock
      stderr := "" }
    match dialogue.answer .graphemes fuel showOutline line with
    | .error _ => surrender
    | .ok (.inl outcome) => do
        tell outcome.stdout shown outcome.stderr
        pure outcome.status.code.toUInt32
    | .ok (.inr dialogue) => do
        tell dialogue.session.written shown dialogue.stderr
        converse showOutline dialogue

/-- Writes what a run leaves behind and gives its exit status. -/
def conclude : Except Abort Outcome → IO UInt32
  | .error _ => surrender
  | .ok outcome => do
      tell outcome.stdout 0 outcome.stderr
      pure outcome.status.code.toUInt32

end Scriptlet.Main

open Scriptlet CommandLine in
/-- Runs a script or a dialogue. -/
def main (arguments : List String) : IO UInt32 := do
  let clock ← Main.presentClock
  match Options.ofArguments? arguments with
  | some ⟨showOutline, none⟩ => Main.converse showOutline ⟨.start .unlimited clock, ""⟩
  | some ⟨_, some script⟩ => do
      let content ← Main.contentOf script
      Main.conclude (run .graphemes Main.fuel clock arguments (fun _ => content) [])
  | none => Main.conclude (run .graphemes Main.fuel clock arguments (fun _ => .error .notFound) [])
