import Scriptlet.Proofs.Evaluation.Lockstep
import Scriptlet.Proofs.Evaluation.Operators

/-!
# Values that correspond

Two runs can make callable objects that are not the same and still cannot be told apart by a
program: they print as the same text, take as many arguments, and one equals another in one run as
their partners do in the other. Values are alike if they are the same or such objects. Operators
give the same for alike operands.
-/

namespace Scriptlet

/-- Objects of two runs that correspond and that programs cannot tell apart. -/
structure Callable.Indistinguishable (objects : Callable → Callable → Prop) : Prop where
  arity_eq : ∀ {left right}, objects left right → left.arity = right.arity
  text_eq : ∀ {left right}, objects left right → left.text = right.text
  identity_iff : ∀ {left right left' right'}, objects left right → objects left' right' →
    (left.identity = left'.identity ↔ right.identity = right'.identity)

/-- The same value, or corresponding objects. -/
inductive Value.Alike (objects : Callable → Callable → Prop) : Value → Value → Prop where
  | plain {value : Value} (isPlain : value.IsPlain) : Alike objects value value
  | callable {left right : Callable} (corresponding : objects left right) :
      Alike objects (.callable left) (.callable right)

variable {objects : Callable → Callable → Prop}

namespace Value.Alike

variable {left left' right right' : Value}

theorem isTruthy_eq (alike : Alike objects left right) : left.isTruthy = right.isTruthy := by
  cases alike <;> rfl

theorem text_eq (indistinguishable : Callable.Indistinguishable objects)
    (alike : Alike objects left right) : left.text = right.text := by
  cases alike with
  | plain => rfl
  | callable corresponding => exact indistinguishable.text_eq corresponding

theorem numbers_eq (left_alike : Alike objects left left') (right_alike : Alike objects right right') :
    numbers left right = numbers left' right' := by
  cases left_alike with
  | callable => cases right_alike <;> rfl
  | plain =>
      cases right_alike with
      | plain => rfl
      | callable => cases left <;> rfl

theorem equals_eq (indistinguishable : Callable.Indistinguishable objects)
    (left_alike : Alike objects left left') (right_alike : Alike objects right right') :
    left.equals right = left'.equals right' := by
  cases left_alike with
  | plain left_plain =>
      cases right_alike with
      | plain => rfl
      | callable =>
          cases left with
          | callable => cases left_plain
          | nil | boolean | number | string => rfl
  | callable left_corresponding =>
      cases right_alike with
      | plain right_plain =>
          cases right with
          | callable => cases right_plain
          | nil | boolean | number | string => rfl
      | callable right_corresponding =>
          simp only [equals, indistinguishable.identity_iff left_corresponding right_corresponding]

theorem add_eq (indistinguishable : Callable.Indistinguishable objects)
    (left_alike : Alike objects left left') (right_alike : Alike objects right right') :
    left.add right = left'.add right' := by
  have left_text := left_alike.text_eq indistinguishable
  have right_text := right_alike.text_eq indistinguishable
  cases left_alike with
  | plain left_plain =>
      cases right_alike with
      | plain => rfl
      | callable =>
          cases left with
          | callable => cases left_plain
          | string => simp only [add, right_text]
          | nil | boolean | number => rfl
  | callable =>
      cases right_alike with
      | callable => rfl
      | plain right_plain =>
          cases right with
          | callable => cases right_plain
          | string => simp only [add, left_text]
          | nil | boolean | number => rfl

end Value.Alike

theorem UnaryOperator.apply_eq_of_alike (operator : UnaryOperator) {operand other : Value}
    (alike : operand.Alike objects other) : operator.apply operand = operator.apply other := by
  cases alike with
  | plain => rfl
  | callable => cases operator <;> rfl

theorem BinaryOperator.apply_eq_of_alike (indistinguishable : Callable.Indistinguishable objects)
    (operator : BinaryOperator) {left left' right right' : Value}
    (left_alike : left.Alike objects left') (right_alike : right.Alike objects right') :
    operator.apply left right = operator.apply left' right' := by
  have numbers_eq := left_alike.numbers_eq right_alike
  cases operator with
  | equal | notEqual => simp only [apply, left_alike.equals_eq indistinguishable right_alike]
  | add => exact left_alike.add_eq indistinguishable right_alike
  | divide => simp only [apply, Value.divide, numbers_eq]
  | subtract | multiply | greater | greaterEqual | less | lessEqual =>
      simp only [apply, Value.arithmetic, Value.compare, numbers_eq]

theorem LogicalOperator.decidedBy_eq_of_alike (operator : LogicalOperator) {left right : Value}
    (alike : left.Alike objects right) : operator.decidedBy left = operator.decidedBy right := by
  cases operator <;> simp only [decidedBy, alike.isTruthy_eq]

namespace Evaluation

variable {related : Interpreter → Interpreter → Prop} {stops : Interruption → Interruption → Prop}

/-- An operator that gives the same gives alike values, because it gives no objects. -/
theorem lockstep_operate {token : Token} {kind : Token.Kind}
    {result : Except OperatorError Value} (fits : FitsOperator kind result)
    (refused : ∀ error, stops (.error (.operator token error)) (.error (.operator token error))) :
    Lockstep related stops (operate token result) (operate token result)
      (Value.Alike objects) := by
  cases result with
  | ok value => exact lockstep_pure (.plain fits)
  | error error => exact lockstep_fail (refused error)

/-- Corresponding callees are called with as many arguments or refused in the same way. -/
theorem lockstep_resolve (indistinguishable : Callable.Indistinguishable objects)
    {paren : Token.OfKind .rightParen} {callee other : Value} (alike : callee.Alike objects other)
    (count : Nat) (notCallable : stops (.error (.notCallable paren)) (.error (.notCallable paren)))
    (mismatch : ∀ expected found, stops (.error (.arityMismatch paren expected found))
      (.error (.arityMismatch paren expected found))) :
    Lockstep related stops (resolve paren callee count) (resolve paren other count) objects := by
  cases alike with
  | plain isPlain =>
      cases callee with
      | callable => cases isPlain
      | nil | boolean | number | string => exact lockstep_fail notCallable
  | callable corresponding =>
      simp only [resolve, ← indistinguishable.arity_eq corresponding]
      split
      · exact lockstep_pure corresponding
      · exact lockstep_fail (mismatch _ _)

/-- The search for a name finds alike values in owners that belong together, or nothing. -/
abbrev LocatesAlike (objects : Callable → Callable → Prop) (owners : Nat → Nat → Prop) :
    Option (Nat × Value) → Option (Nat × Value) → Prop :=
  Option.Rel fun found other => owners found.1 other.1 ∧ found.2.Alike objects other.2

variable {owners : Nat → Nat → Prop} {frame other : Nat} {name : Name}
  (located : ∀ state otherState, related state otherState → LocatesAlike objects owners
    (state.scopes.locate name.lexeme frame) (otherState.scopes.locate name.lexeme other))
  (refused : stops (.error (.undefinedVariable name)) (.error (.undefinedVariable name)))

include located refused

theorem lockstep_lookup :
    Lockstep related stops (lookup frame name) (lookup other name) (Value.Alike objects) := by
  intro state otherState states_related
  have found_alike := located state otherState states_related
  simp only [lookup, Scopes.find]
  generalize state.scopes.locate name.lexeme frame = found,
    otherState.scopes.locate name.lexeme other = otherFound at found_alike ⊢
  cases found_alike with
  | none => exact .error refused states_related
  | some found_alike => exact .ok found_alike.2 states_related

theorem lockstep_assign {left right : Value} (alike : left.Alike objects right)
    (defined : ∀ state otherState, related state otherState → ∀ owner otherOwner,
      owners owner otherOwner →
        related { state with scopes := state.scopes.define owner name.lexeme left }
          { otherState with scopes := otherState.scopes.define otherOwner name.lexeme right }) :
    Lockstep related stops (assign frame name left) (assign other name right)
      (Value.Alike objects) := by
  intro state otherState states_related
  have found_alike := located state otherState states_related
  simp only [assign, Scopes.owner]
  generalize state.scopes.locate name.lexeme frame = found,
    otherState.scopes.locate name.lexeme other = otherFound at found_alike ⊢
  cases found_alike with
  | none => exact .error refused states_related
  | some found_alike =>
      exact .ok alike (defined state otherState states_related _ _ found_alike.1)

end Evaluation

end Scriptlet
