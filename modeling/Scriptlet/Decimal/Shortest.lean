import Scriptlet.Decimal.Nearest

/-!
# The shortest decimal number that reads back

Among the decimal numbers that are read as a given double, the text of the double is the one with
the fewest digits, and of those the one nearest to the double; of two equally near the greater.
Each count of digits leaves two candidates, the neighbours of the double on that grid of decimal
numbers, and a candidate is tested by reading it.
-/

namespace Scriptlet.Decimal

/-- The exact value of a number of units of the least positive double. -/
def ofUnits (units : Nat) : Decimal :=
  let common := units.gcd Binary64.unitsPerOne
  let places := (Binary64.unitsPerOne / common).log2
  ⟨units / common * Nat.pow 5 places, -places⟩

/-- The neighbours of a number among the numbers with a count of digits, the nearer one first. -/
def neighbours (exact : Decimal) (count : Nat) : List Decimal :=
  let dropped := (Nat.toDigits 10 exact.coefficient).length - count
  let step := Nat.pow 10 dropped
  let below : Decimal := ⟨exact.coefficient / step, exact.exponent + dropped⟩
  let above : Decimal := ⟨exact.coefficient / step + 1, exact.exponent + dropped⟩
  if step ≤ 2 * (exact.coefficient % step) then [above, below] else [below, above]

/-- Seventeen digits tell every double from its neighbours. -/
def maxDigits : Nat := 17

/-- The shortest decimal number that is read as the double of a magnitude. The exact value, which
always reads back, stands behind the search. -/
def shortest (magnitude : Nat) : Decimal :=
  let exact := ofUnits (Binary64.units magnitude)
  let found := (List.range' 1 maxDigits).findSome? fun count =>
    (neighbours exact count).find? fun candidate => candidate.nearest = magnitude
  (found.getD exact).trimmed

end Scriptlet.Decimal
