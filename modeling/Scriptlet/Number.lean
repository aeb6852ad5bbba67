import Scriptlet.Decimal.Shortest

/-!
# Numbers as text

Numbers are doubles. `Number.text` writes one: a sign, then the shortest positional numeral that
reads back, or a word for what is no finite number.
-/

namespace Scriptlet.Number

/-- The word for a number that is none. -/
def notANumber : String := "NaN"

/-- The word for an infinite number. -/
def infinity : String := "inf"

/-- The text of a finite or infinite magnitude. -/
def magnitudeText (magnitude : Nat) : String :=
  if magnitude = Binary64.infinity then infinity
  else String.ofList (Decimal.shortest magnitude).numeral

/-- The text of a number. Zero keeps its sign. -/
def text (number : Float) : String :=
  let magnitude := Binary64.magnitude number
  if Binary64.infinity < magnitude then notANumber
  else if Binary64.isSigned number then "-" ++ magnitudeText magnitude
  else magnitudeText magnitude

end Scriptlet.Number
