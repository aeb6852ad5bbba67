import Scriptlet.Text.BreakTable

/-!
# Break classes of characters

Where a user-perceived character ends depends only on a class of each code point. This file names
the classes and finds the class of a character. The ASCII range is decided without the tables: it
holds two line characters, controls, and characters of no special class.
-/

namespace Scriptlet.Text

/-- What a character contributes to the boundary between it and its neighbours. -/
inductive BreakClass where
  | carriageReturn
  | lineFeed
  | control
  | extending
  | linking
  | joiner
  | nonJoiner
  | spacing
  | prepending
  | consonant
  | pictograph
  | regionalIndicator
  | leadingJamo
  | vowelJamo
  | trailingJamo
  | openSyllable
  | closedSyllable
  | plain
  deriving DecidableEq, Repr

namespace BreakClass

/-- The class of an ASCII character. -/
def ofAscii (point : Nat) : BreakClass :=
  if point = 0x0D then .carriageReturn
  else if point = 0x0A then .lineFeed
  else if point < 0x20 ∨ point = 0x7F then .control
  else .plain

/-- The class of a precomposed Hangul syllable: every 28th has no closing consonant. -/
def ofSyllable (point : Nat) : BreakClass :=
  if (point - 0xAC00) % 28 = 0 then .openSyllable else .closedSyllable

/-- Membership of a code point in a list of ranges. -/
def covers (ranges : List (Nat × Nat)) (point : Nat) : Bool :=
  ranges.any fun range => range.1 ≤ point && point ≤ range.2

/-- The classes given by tables, each with its ranges. -/
def tables : List (BreakClass × List (Nat × Nat)) := [
  (.extending, BreakTable.extending), (.linking, BreakTable.linking),
  (.spacing, BreakTable.spacing), (.consonant, BreakTable.consonants),
  (.pictograph, BreakTable.pictographs), (.control, BreakTable.control),
  (.prepending, BreakTable.prepending), (.leadingJamo, BreakTable.leadingJamo),
  (.vowelJamo, BreakTable.vowelJamo), (.trailingJamo, BreakTable.trailingJamo)]

/-- The class of a character outside of ASCII. -/
def ofWide (point : Nat) : BreakClass :=
  if point = 0x200D then .joiner
  else if point = 0x200C then .nonJoiner
  else if 0x1F1E6 ≤ point ∧ point ≤ 0x1F1FF then .regionalIndicator
  else if 0xAC00 ≤ point ∧ point ≤ 0xD7A3 then ofSyllable point
  else match tables.find? fun table => covers table.2 point with
    | some table => table.1
    | none => .plain

/-- The class of a character. -/
def of (char : Char) : BreakClass :=
  if char.toNat < 0x80 then ofAscii char.toNat else ofWide char.toNat

end BreakClass

end Scriptlet.Text
