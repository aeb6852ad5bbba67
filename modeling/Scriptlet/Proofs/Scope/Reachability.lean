import Scriptlet.Proofs.Evaluation.Correspondence
import Scriptlet.Proofs.Scope.Chain

/-!
# Frames within reach

From a frame others can be reached: the frames around it, and the frames that functions bound in it
were declared in, and so on. Two states agree on a frame if it is enclosed by the same frame in both
and binds the same names to the same values there.

Callable objects are numbered in the order in which they are made, so objects made after two moments
are the same if as many were made between the moments and them, whatever was made before.
-/

namespace Scriptlet

/-- The numbers of one object in two runs: it is older than both, or was made as the same one in
the order of making since the counters of the runs had given values. -/
inductive SameIdentity (first second : Nat) : Nat → Nat → Prop where
  | earlier {identity : Nat} (is_earlier : identity < first) (other_earlier : identity < second) :
      SameIdentity first second identity identity
  | since (made : Nat) : SameIdentity first second (first + made) (second + made)

theorem SameIdentity.eq_iff_eq {first second left right left' right' : Nat}
    (same : SameIdentity first second left right)
    (same' : SameIdentity first second left' right') : left = left' ↔ right = right' := by
  cases same <;> cases same' <;> omega

/-- From equal counters only equal numbers belong to one object. -/
theorem sameIdentity_self_iff {first left right : Nat} :
    SameIdentity first first left right ↔ left = right := by
  constructor
  · rintro (_ | _) <;> rfl
  · rintro rfl
    rcases Nat.lt_or_ge left first with earlier | later
    · exact .earlier earlier earlier
    · obtain ⟨made, rfl⟩ := Nat.exists_eq_add_of_le later
      exact .since made

namespace Callable

/-- One object in two runs. -/
structure Same (first second : Nat) (left right : Callable) : Prop where
  function_eq : left.function = right.function
  identity : SameIdentity first second left.identity right.identity

theorem same_self_iff {first : Nat} {left right : Callable} :
    Same first first left right ↔ left = right := by
  constructor
  · rintro ⟨function_eq, identity⟩
    cases left
    cases right
    cases function_eq
    cases sameIdentity_self_iff.mp identity
    rfl
  · rintro rfl
    exact ⟨rfl, sameIdentity_self_iff.mpr rfl⟩

/-- The frame that a declared function captures. -/
def captured (object : Callable) : Option Nat :=
  match object.function with
  | .clock => none
  | .declared _ closure => some closure

theorem Same.captured_eq {first second : Nat} {left right : Callable}
    (same : Same first second left right) : left.captured = right.captured := by
  rw [captured, captured, same.function_eq]

end Callable

namespace Value

/-- One value in two runs, which is the same also if it is an object. -/
abbrev Same (first second : Nat) : Value → Value → Prop :=
  Alike (Callable.Same first second)

/-- From equal counters only equal values are the same. -/
theorem same_self_iff {first : Nat} {left right : Value} :
    Same first first left right ↔ left = right := by
  constructor
  · rintro (_ | same)
    · rfl
    · rw [Callable.same_self_iff.mp same]
  · rintro rfl
    cases left with
    | callable => exact .callable (Callable.same_self_iff.mpr rfl)
    | nil | boolean | number | string => exact .plain trivial

/-- The frame that a value captures, if it is a declared function. -/
def captured : Value → Option Nat
  | .callable object => object.captured
  | _ => none

theorem captured_eq_of_same {first second : Nat} {left right : Value}
    (same : Same first second left right) : left.captured = right.captured := by
  cases same with
  | plain => rfl
  | callable same => exact same.captured_eq

end Value

namespace Scopes

/-- A frame leads to the one around it and to those that functions bound in it capture. -/
inductive Leads (scopes : Scopes) (frame : Nat) : Nat → Prop where
  | enclosing {outer : Nat} (outer_eq : scopes.enclosing frame = some outer) :
      Leads scopes frame outer
  | captured {name : String} {value : Value} {closure : Nat}
      (bound_eq : scopes.bound frame name = some value)
      (captured_eq : value.captured = some closure) : Leads scopes frame closure

/-- A frame can be reached from another one, or is that frame. -/
abbrev Reachable (scopes : Scopes) : Nat → Nat → Prop :=
  Relation.ReflTransGen scopes.Leads

/-- Two states of the frames agree on one of them. Objects are compared from two values of their
counters on. -/
structure AgreeAt (first second : Nat) (left right : Scopes) (frame : Nat) : Prop where
  enclosing_eq : left.enclosing frame = right.enclosing frame
  bound_same : ∀ name,
    Option.Rel (Value.Same first second) (left.bound frame name) (right.bound frame name)

variable {first second : Nat} {left right : Scopes} {frame : Nat}

theorem AgreeAt.leads (agree : AgreeAt first second left right frame) {other : Nat}
    (leads : left.Leads frame other) : right.Leads frame other := by
  cases leads with
  | enclosing outer_eq => exact .enclosing (agree.enclosing_eq ▸ outer_eq)
  | @captured name value closure bound_eq captured_eq =>
      have same := agree.bound_same name
      rw [bound_eq] at same
      generalize right_eq : right.bound frame name = found at same
      cases same with
      | some same =>
          exact .captured right_eq ((Value.captured_eq_of_same same).symm.trans captured_eq)

/-- What is reached in one of two states that agree on it is reached in the other. -/
theorem reachable_of_agree
    (agree : ∀ other, left.Reachable frame other → AgreeAt first second left right other)
    {other : Nat} (reachable : left.Reachable frame other) : right.Reachable frame other := by
  induction reachable with
  | refl => exact .refl
  | tail reachable leads ih => exact ih.tail ((agree _ reachable).leads leads)

end Scopes

end Scriptlet
