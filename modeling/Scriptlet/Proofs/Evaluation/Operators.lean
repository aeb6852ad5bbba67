import Scriptlet.Value.Operator

/-!
# What operators give

An operator gives a value that is no callable object, or an error. Only some operators can fail in
each of the ways.
-/

namespace Scriptlet

/-- A value that is no callable object. -/
def Value.IsPlain : Value → Prop
  | .callable _ => False
  | _ => True

/-- The kinds of the operators that fail with an error. -/
def OperatorError.kinds : OperatorError → List Token.Kind
  | .operandNotNumber => [.minus]
  | .operandsNotNumbers => [.minus, .star, .slash, .greater, .greaterEqual, .less, .lessEqual]
  | .invalidOperands => [.plus]
  | .divisionByZero => [.slash]

/-- A result that an operator of a kind can give. -/
def FitsOperator (kind : Token.Kind) : Except OperatorError Value → Prop
  | .ok value => value.IsPlain
  | .error error => kind ∈ error.kinds

namespace Value

theorem isPlain_ofLiteral (literal : Literal) : (ofLiteral literal).IsPlain := by
  cases literal <;> trivial

theorem numbers_cases (left right : Value) :
    (∃ first second, left = number first ∧ right = number second) ∨
      numbers left right = .error .operandsNotNumbers := by
  unfold numbers
  split
  · exact .inl ⟨_, _, rfl, rfl⟩
  · exact .inr rfl

theorem fitsOperator_add (left right : Value) : FitsOperator .plus (left.add right) := by
  unfold add
  split
  · trivial
  · trivial
  · trivial
  · exact List.mem_singleton_self _

theorem fitsOperator_divide (left right : Value) : FitsOperator .slash (left.divide right) := by
  rcases numbers_cases left right with ⟨first, second, rfl, rfl⟩ | refused
  · change FitsOperator .slash
      (if second == 0 then .error .divisionByZero else .ok (number (first / second)))
    split
    · exact List.mem_singleton_self _
    · trivial
  · simp only [divide, refused]
    exact List.mem_of_elem_eq_true rfl

end Value

theorem UnaryOperator.fitsOperator_apply (operator : UnaryOperator) (operand : Value) :
    FitsOperator operator.kind (operator.apply operand) := by
  cases operator with
  | negate =>
      cases operand with
      | number => trivial
      | nil | boolean | string | callable => exact List.mem_singleton_self _
  | invert => trivial

theorem BinaryOperator.fitsOperator_apply (operator : BinaryOperator) (left right : Value) :
    FitsOperator operator.kind (operator.apply left right) := by
  cases operator with
  | equal | notEqual => trivial
  | add => exact Value.fitsOperator_add left right
  | divide => exact Value.fitsOperator_divide left right
  | subtract | multiply | greater | greaterEqual | less | lessEqual =>
      rcases Value.numbers_cases left right with ⟨first, second, rfl, rfl⟩ | refused
      · trivial
      · simp only [apply, Value.arithmetic, Value.compare, refused]
        exact List.mem_of_elem_eq_true rfl

end Scriptlet
