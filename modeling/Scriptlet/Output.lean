/-!
# Output

Printed text goes to an output that may take a limited number of bytes. A text that does not fit is
written as far as it does, and is then a failure that the output gives a reason for.
-/

namespace Scriptlet

/-- What has been written, how many more bytes can be, where `none` stands for no limit, and the
reason given for a text that does not fit. -/
structure Output where
  written : ByteArray
  room : Option Nat
  refusal : String

namespace Output

/-- An output that takes any text. -/
def unlimited : Output :=
  ⟨.empty, none, ""⟩

/-- An output that takes some bytes and refuses more. -/
def limited (room : Nat) (refusal : String) : Output :=
  ⟨.empty, some room, refusal⟩

/-- Whether a text can be written whole. -/
def fits (output : Output) (text : String) : Bool :=
  output.room.all (text.utf8ByteSize ≤ ·)

/-- Writes as much of a text as there is room for. -/
def write (output : Output) (text : String) : Output :=
  match output.room with
  | none => { output with written := output.written ++ text.toUTF8 }
  | some room =>
      { output with
        written := output.written ++ text.toUTF8.extract 0 room
        room := some (room - text.utf8ByteSize) }

@[simp]
theorem refusal_write (output : Output) (text : String) :
    (output.write text).refusal = output.refusal := by
  rw [write]
  split <;> rfl

end Output

end Scriptlet
