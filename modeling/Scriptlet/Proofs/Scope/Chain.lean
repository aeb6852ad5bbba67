import Mathlib.Logic.Relation
import Scriptlet.Interpreter.Basic

/-!
# Chains of frames

A name is looked up along the chain of frames that enclose one another. The frame that owns the name
is the nearest one on the chain that binds it, and what a lookup or an assignment does is said by
this frame alone.

* `AtOrAbove` and `IsNearest` are about any enclosing links;
* `Scopes.bound` and `Scopes.enclosing` say what a frame holds, without the chain;
* `Scopes.locate_cases` describes the search, and `Evaluation.lookup_cases` and
  `Evaluation.assign_cases` what is done with what it finds.
-/

namespace Scriptlet

/-- A frame is another one or encloses it, directly or not. -/
def AtOrAbove (enclosing : Nat → Option Nat) : Nat → Nat → Prop :=
  Relation.ReflTransGen fun inner outer => enclosing inner = some outer

/-- The nearest frame, at or above a frame, of those with a property. -/
structure IsNearest (enclosing : Nat → Option Nat) (property : Nat → Prop) (frame owner : Nat) :
    Prop where
  above : AtOrAbove enclosing frame owner
  holds : property owner
  nearest : ∀ other, AtOrAbove enclosing frame other → property other →
    AtOrAbove enclosing owner other

section

variable {enclosing : Nat → Option Nat} {property : Nat → Prop} {frame outer : Nat}

theorem atOrAbove_iff {other : Nat} :
    AtOrAbove enclosing frame other ↔
      frame = other ∨ ∃ outer, enclosing frame = some outer ∧ AtOrAbove enclosing outer other :=
  Relation.ReflTransGen.cases_head_iff

theorem isNearest_self (holds : property frame) : IsNearest enclosing property frame frame :=
  ⟨.refl, holds, fun _ above _ => above⟩

/-- Past a frame without the property the search goes on in the frame around it. -/
theorem IsNearest.of_enclosed (outer_eq : enclosing frame = some outer)
    (missing : ¬property frame) {owner : Nat}
    (isNearest : IsNearest enclosing property outer owner) :
    IsNearest enclosing property frame owner := by
  refine ⟨isNearest.above.head outer_eq, isNearest.holds, ?_⟩
  intro other above holds
  rcases atOrAbove_iff.mp above with rfl | ⟨next, next_eq, above_next⟩
  · exact absurd holds missing
  · obtain rfl : outer = next := Option.some.inj (outer_eq.symm.trans next_eq)
    exact isNearest.nearest other above_next holds

end

namespace Scopes

/-- The value that a frame itself binds to a name. -/
def bound (scopes : Scopes) (frame : Nat) (name : String) : Option Value :=
  scopes.frames[frame]?.bind (·.bindings.find name)

/-- The frame around a frame. -/
def enclosing (scopes : Scopes) (frame : Nat) : Option Nat :=
  scopes.frames[frame]?.bind Frame.enclosing

section

variable {scopes : Scopes} {frame : Nat}

theorem bound_of_lt (isFrame : frame < scopes.frames.size) (name : String) :
    scopes.bound frame name = scopes.frames[frame].bindings.find name := by
  simp [bound, isFrame]

theorem enclosing_of_lt (isFrame : frame < scopes.frames.size) :
    scopes.enclosing frame = scopes.frames[frame].enclosing := by
  simp [enclosing, isFrame]

theorem bound_of_not_lt (not_frame : ¬frame < scopes.frames.size) (name : String) :
    scopes.bound frame name = none := by
  simp [bound, Nat.le_of_not_lt not_frame]

theorem enclosing_of_not_lt (not_frame : ¬frame < scopes.frames.size) :
    scopes.enclosing frame = none := by
  simp [enclosing, Nat.le_of_not_lt not_frame]

end

/-- Whether a frame binds a name itself. -/
abbrev Binds (scopes : Scopes) (name : String) (frame : Nat) : Prop :=
  scopes.bound frame name ≠ none

/-- The search goes along the chain. -/
theorem locate_eq (scopes : Scopes) (name : String) (frame : Nat) :
    scopes.locate name frame =
      match scopes.bound frame name with
      | some value => some (frame, value)
      | none => (scopes.enclosing frame).bind (scopes.locate name) := by
  by_cases isFrame : frame < scopes.frames.size
  · rw [bound_of_lt isFrame, enclosing_of_lt isFrame]
    cases found : scopes.frames[frame].bindings.find name with
    | some value => exact locate_of_bound isFrame found
    | none =>
        cases outer_eq : scopes.frames[frame].enclosing with
        | some outer => exact locate_of_enclosed isFrame found outer_eq
        | none => exact locate_of_outermost isFrame found outer_eq
  · rw [bound_of_not_lt isFrame, enclosing_of_not_lt isFrame, locate_of_not_frame isFrame]
    rfl

theorem lt_of_enclosing {scopes : Scopes} {frame outer : Nat}
    (outer_eq : scopes.enclosing frame = some outer) : outer < frame := by
  by_cases isFrame : frame < scopes.frames.size
  · rw [enclosing_of_lt isFrame] at outer_eq
    exact scopes.enclosing_lt frame isFrame outer outer_eq
  · rw [enclosing_of_not_lt isFrame] at outer_eq
    cases outer_eq

/-- The search finds the nearest frame that binds the name, or there is none. -/
theorem locate_cases (scopes : Scopes) (name : String) (frame : Nat) :
    (∃ owner value, IsNearest scopes.enclosing (scopes.Binds name) frame owner ∧
        scopes.bound owner name = some value ∧ scopes.locate name frame = some (owner, value)) ∨
      (∀ other, AtOrAbove scopes.enclosing frame other → scopes.bound other name = none) ∧
        scopes.locate name frame = none := by
  -- Along the chain: the frame binds the name, leaves it to the frame around it, or is the last.
  induction frame using Nat.strongRecOn with
  | ind frame ih =>
      rw [locate_eq]
      cases found : scopes.bound frame name with
      | some value => exact .inl ⟨frame, value, isNearest_self (by simp [found]), found, rfl⟩
      | none =>
          cases outer_eq : scopes.enclosing frame with
          | some outer =>
              rcases ih outer (lt_of_enclosing outer_eq) with
                ⟨owner, value, isNearest, owner_bound, located⟩ | ⟨unbound, missed⟩
              · exact .inl ⟨owner, value, isNearest.of_enclosed outer_eq (by simp [found]),
                  owner_bound, located⟩
              · refine .inr ⟨?_, missed⟩
                intro other above
                rcases atOrAbove_iff.mp above with rfl | ⟨next, next_eq, above_next⟩
                · exact found
                · obtain rfl : outer = next := Option.some.inj (outer_eq.symm.trans next_eq)
                  exact unbound other above_next
          | none =>
              refine .inr ⟨?_, rfl⟩
              intro other above
              rcases atOrAbove_iff.mp above with rfl | ⟨next, next_eq, -⟩
              · exact found
              · rw [outer_eq] at next_eq
                cases next_eq

/-- The frames are the same, and what they bind, apart from what one of them binds to a name. -/
structure Rebound (before after : Scopes) (frame : Nat) (name : String) (value : Value) :
    Prop where
  size_eq : after.frames.size = before.frames.size
  enclosing_eq : after.enclosing = before.enclosing
  bound_eq : ∀ other asked, after.bound other asked =
    if other = frame ∧ asked = name then some value else before.bound other asked

theorem rebound_define {scopes : Scopes} {frame : Nat} (isFrame : frame < scopes.frames.size)
    (name : String) (value : Value) :
    Rebound scopes (scopes.define frame name value) frame name value where
  size_eq := Array.size_modify
  enclosing_eq := by
    funext other
    simp only [enclosing, define, Array.getElem?_modify]
    split <;> cases scopes.frames[other]? <;> rfl
  bound_eq other asked := by
    simp only [bound, define, Array.getElem?_modify]
    by_cases same : other = frame
    · subst same
      simp [isFrame, Bindings.find_put, eq_comm]
    · simp [same, Ne.symm same]

theorem define_of_not_lt {scopes : Scopes} {frame : Nat} (not_frame : ¬frame < scopes.frames.size)
    (name : String) (value : Value) : scopes.define frame name value = scopes := by
  simp only [define]
  congr
  apply Array.ext
  · exact Array.size_modify
  · intro other _ isFrame
    rw [Array.getElem_modify]
    split
    · next same => exact absurd (same ▸ isFrame) not_frame
    · rfl

/-- A new frame binds nothing; the others are as they were. -/
theorem bound_push (scopes : Scopes) (outer : Option Nat) :
    (scopes.push outer).bound = scopes.bound := by
  funext frame name
  simp only [bound, push, Array.getElem?_push]
  split
  · next same => simp [same, Bindings.find]
  · rfl

theorem enclosing_push (scopes : Scopes) (outer : Option Nat) (frame : Nat) :
    (scopes.push outer).enclosing frame =
      if frame = scopes.frames.size then outer.filter (· < scopes.frames.size)
      else scopes.enclosing frame := by
  simp only [enclosing, push, Array.getElem?_push]
  split <;> rfl

theorem size_push (scopes : Scopes) (outer : Option Nat) :
    (scopes.push outer).frames.size = scopes.frames.size + 1 :=
  Array.size_push _

section

variable {scopes : Scopes} {frame : Nat}

theorem isFrame_push (isFrame : frame < scopes.frames.size) (outer : Option Nat) :
    frame < (scopes.push outer).frames.size := by
  rw [size_push]
  exact Nat.lt_succ_of_lt isFrame

theorem enclosing_push_of_lt (isFrame : frame < scopes.frames.size) (outer : Option Nat) :
    (scopes.push outer).enclosing frame = scopes.enclosing frame := by
  rw [enclosing_push, if_neg (Nat.ne_of_lt isFrame)]

theorem isFrame_push_new (scopes : Scopes) (outer : Option Nat) :
    scopes.frames.size < (scopes.push outer).frames.size := by
  rw [size_push]
  exact Nat.lt_succ_self _

theorem enclosing_push_new (isFrame : frame < scopes.frames.size) :
    (scopes.push (some frame)).enclosing scopes.frames.size = some frame := by
  rw [enclosing_push, if_pos rfl, Option.filter_some_pos (by simpa using isFrame)]

end

end Scopes

namespace Evaluation

/-- A lookup gives what the nearest frame binds, or fails at the name; it changes nothing. -/
theorem lookup_cases (frame : Nat) (name : Name) (state : Interpreter) :
    (∃ owner value,
        IsNearest state.scopes.enclosing (state.scopes.Binds name.lexeme) frame owner ∧
        state.scopes.bound owner name.lexeme = some value ∧
        lookup frame name state = .ok value state) ∨
      (∀ other, AtOrAbove state.scopes.enclosing frame other →
          state.scopes.bound other name.lexeme = none) ∧
        lookup frame name state = .error (.error (.undefinedVariable name)) state := by
  rcases state.scopes.locate_cases name.lexeme frame with
    ⟨owner, value, isNearest, owner_bound, located⟩ | ⟨unbound, missed⟩
  · left
    refine ⟨owner, value, isNearest, owner_bound, ?_⟩
    simp only [lookup, Scopes.find, located, Option.map_some]
  · right
    refine ⟨unbound, ?_⟩
    simp only [lookup, Scopes.find, missed, Option.map_none]
    rfl

/-- An assignment rebinds the name in the nearest frame, or fails at the name. -/
theorem assign_cases (frame : Nat) (name : Name) (value : Value) (state : Interpreter) :
    (∃ owner, IsNearest state.scopes.enclosing (state.scopes.Binds name.lexeme) frame owner ∧
        assign frame name value state =
          .ok value { state with scopes := state.scopes.define owner name.lexeme value } ∧
        state.scopes.Rebound (state.scopes.define owner name.lexeme value) owner name.lexeme
          value) ∨
      (∀ other, AtOrAbove state.scopes.enclosing frame other →
          state.scopes.bound other name.lexeme = none) ∧
        assign frame name value state = .error (.error (.undefinedVariable name)) state := by
  rcases state.scopes.locate_cases name.lexeme frame with
    ⟨owner, _, isNearest, _, located⟩ | ⟨unbound, missed⟩
  · left
    have isFrame : owner < state.scopes.frames.size :=
      Decidable.byContradiction fun not_frame =>
        isNearest.holds (Scopes.bound_of_not_lt not_frame _)
    refine ⟨owner, isNearest, ?_, Scopes.rebound_define isFrame name.lexeme value⟩
    simp only [assign, Scopes.owner, located, Option.map_some]
  · right
    refine ⟨unbound, ?_⟩
    simp only [assign, Scopes.owner, missed, Option.map_none]
    rfl

end Evaluation

end Scriptlet
