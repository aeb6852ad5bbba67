import Scriptlet.Value.Basic

/-!
# Scope frames

Names are bound in frames. A frame knows the frame that encloses it, which is always an older one,
so following the enclosing frames comes to an end.

* `Scopes.define` binds a name in one frame;
* `Scopes.find` looks a name up in a frame and the frames around it;
* `Scopes.owner` is the frame in which `find` finds the name, where an assignment goes.
-/

namespace Scriptlet

/-- The bindings of one frame; each name is bound once. -/
abbrev Bindings := List (String × Value)

namespace Bindings

/-- The value bound to a name. -/
def find : Bindings → String → Option Value
  | [], _ => none
  | (bound, value) :: others, name => if bound = name then some value else find others name

/-- Binds a name, in the place of its earlier binding if there is one. -/
def put : Bindings → String → Value → Bindings
  | [], name, value => [(name, value)]
  | (bound, earlier) :: others, name, value =>
      if bound = name then (name, value) :: others
      else (bound, earlier) :: put others name value

/-- Binding a name changes what that name stands for and no other. -/
theorem find_put (bindings : Bindings) (name other : String) (value : Value) :
    (bindings.put name value).find other =
      if name = other then some value else bindings.find other := by
  induction bindings with
  | nil => simp [put, find]
  | cons binding others ih =>
      obtain ⟨bound, earlier⟩ := binding
      by_cases same : bound = name
      · by_cases asked : name = other <;> simp [put, find, same, asked]
      · by_cases asked : bound = other
        · subst asked
          simp [put, find, same, Ne.symm same]
        · simp [put, find, same, asked, ih]

end Bindings

/-- A frame. -/
structure Frame where
  bindings : Bindings
  enclosing : Option Nat

/-- All frames made so far, by number. -/
structure Scopes where
  frames : Array Frame
  /-- A frame is enclosed by an older one. -/
  enclosing_lt : ∀ (id : Nat) (isFrame : id < frames.size) (outer : Nat),
    frames[id].enclosing = some outer → outer < id

namespace Scopes

/-- No frames. -/
def empty : Scopes :=
  ⟨#[], by simp⟩

/-- Adds a frame without bindings. A frame that does not exist encloses nothing. -/
def push (scopes : Scopes) (enclosing : Option Nat) : Scopes where
  frames := scopes.frames.push ⟨[], enclosing.filter (· < scopes.frames.size)⟩
  enclosing_lt id isFrame outer outer_eq := by
    rw [Array.getElem_push] at outer_eq
    split at outer_eq
    · exact scopes.enclosing_lt id _ outer outer_eq
    · have older := (Option.filter_eq_some_iff.mp outer_eq).2
      simp only [decide_eq_true_eq] at older
      omega

/-- The number of the frame that `push` adds. -/
def nextId (scopes : Scopes) : Nat :=
  scopes.frames.size

/-- Binds a name in a frame, whatever it or the frames around it bind. -/
def define (scopes : Scopes) (id : Nat) (name : String) (value : Value) : Scopes where
  frames := scopes.frames.modify id fun frame =>
    { frame with bindings := frame.bindings.put name value }
  enclosing_lt other isFrame outer outer_eq := by
    rw [Array.getElem_modify] at outer_eq
    split at outer_eq <;> exact scopes.enclosing_lt other _ outer outer_eq

/-- The nearest frame, from a frame outwards, that binds a name, with the value bound there. -/
def locate (scopes : Scopes) (name : String) (id : Nat) : Option (Nat × Value) :=
  if isFrame : id < scopes.frames.size then
    match scopes.frames[id].bindings.find name with
    | some value => some (id, value)
    | none =>
      match outer_eq : scopes.frames[id].enclosing with
      | some outer => locate scopes name outer
      | none => none
  else none
termination_by id
decreasing_by exact scopes.enclosing_lt id isFrame outer outer_eq

section

variable {scopes : Scopes} {name : String} {id : Nat}

theorem locate_of_bound (isFrame : id < scopes.frames.size) {value : Value}
    (found : scopes.frames[id].bindings.find name = some value) :
    scopes.locate name id = some (id, value) := by
  rw [locate]
  simp only [isFrame, dite_true, found]

theorem locate_of_enclosed (isFrame : id < scopes.frames.size)
    (missing : scopes.frames[id].bindings.find name = none) {outer : Nat}
    (outer_eq : scopes.frames[id].enclosing = some outer) :
    scopes.locate name id = scopes.locate name outer := by
  rw [locate]
  simp only [isFrame, dite_true, missing]
  split
  · simp_all
  · simp_all

theorem locate_of_outermost (isFrame : id < scopes.frames.size)
    (missing : scopes.frames[id].bindings.find name = none)
    (outermost : scopes.frames[id].enclosing = none) : scopes.locate name id = none := by
  rw [locate]
  simp only [isFrame, dite_true, missing]
  split
  · simp_all
  · rfl

theorem locate_of_not_frame (not_frame : ¬id < scopes.frames.size) :
    scopes.locate name id = none := by
  rw [locate]
  simp only [not_frame, dite_false]

end

/-- The value of a name as seen from a frame. -/
def find (scopes : Scopes) (id : Nat) (name : String) : Option Value :=
  (scopes.locate name id).map (·.2)

/-- The frame whose binding of a name is seen from a frame. -/
def owner (scopes : Scopes) (id : Nat) (name : String) : Option Nat :=
  (scopes.locate name id).map (·.1)

end Scopes

end Scriptlet
