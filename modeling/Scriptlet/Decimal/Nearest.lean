import Scriptlet.Decimal.Basic

/-!
# The nearest double to a decimal number

Doubles are handled through their magnitude: the 64 bits without the sign, as a natural number.
Magnitudes are ordered like the numbers they stand for. Every finite double is a whole number of
units of `2 ^ -1074`, so rounding is one division of natural numbers.

* `Binary64.units` is the number of units that a finite magnitude stands for;
* `Binary64.ofRatio` rounds a quotient of units to the nearest magnitude, a tie to the even one;
* `Decimal.toFloat` reads a decimal number as a double.
-/

namespace Scriptlet

namespace Binary64

/-- The number of magnitudes between two consecutive powers of two. -/
def binade : Nat := Nat.pow 2 52

/-- The magnitude of infinity, above those of all finite numbers. -/
def infinity : Nat := 2047 * binade

/-- How many units of the least positive double make one. -/
def unitsPerOne : Nat := Nat.pow 2 1074

/-- The number of units that a finite magnitude stands for. -/
def units (magnitude : Nat) : Nat :=
  if magnitude < binade then magnitude
  else (binade + magnitude % binade) * Nat.pow 2 (magnitude / binade - 1)

/-- The whole number nearest to a quotient, the even one of two that are equally near. -/
def roundDiv (numerator denominator : Nat) : Nat :=
  let quotient := numerator / denominator
  let twice := 2 * (numerator % denominator)
  if denominator < twice ∨ (twice = denominator ∧ quotient % 2 = 1) then quotient + 1 else quotient

/-- The magnitude nearest to a quotient of units. Rounding up to the next power of two carries into
the next binade, and past the largest finite number into infinity. -/
def ofRatio (numerator denominator : Nat) : Nat :=
  let shift := (numerator / denominator).log2 - 52
  min infinity (shift * binade + roundDiv numerator (denominator * Nat.pow 2 shift))

/-- The bits of a number without its sign. -/
def magnitude (number : Float) : Nat :=
  number.toBits.toNat % Nat.pow 2 63

/-- Whether the sign bit of a number is set. -/
def isSigned (number : Float) : Bool :=
  Nat.pow 2 63 ≤ number.toBits.toNat

/-- The number with some bits and without a sign. -/
def ofMagnitude (magnitude : Nat) : Float :=
  .ofBits (.ofNat magnitude)

end Binary64

namespace Decimal

/-- The magnitude of the double that a number is rounded to. -/
def nearest (decimal : Decimal) : Nat :=
  let (numerator, denominator) := decimal.ratio
  Binary64.ofRatio (numerator * Binary64.unitsPerOne) denominator

/-- The double that a number is rounded to. -/
def toFloat (decimal : Decimal) : Float :=
  Binary64.ofMagnitude decimal.nearest

end Decimal

end Scriptlet
