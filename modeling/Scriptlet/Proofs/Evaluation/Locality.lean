import Scriptlet.Proofs.Evaluation.Simulation
import Scriptlet.Proofs.Scope.Reachability

/-!
# Evaluation stays within reach

What can be reached from a frame changes while a program runs: assignments store functions in outer
frames, calls run in frames below captured ones. But nothing that was out of reach at the start
comes within reach later. A region of two states consists of the frames within reach at the start
and of all frames made since. Evaluation in a frame of the region keeps to it: it goes the same way
in both states as long as they agree on the region, and changes no other frame.
-/

namespace Scriptlet

open Evaluation

/-- Two states to start from, and the frames that evaluation may use. -/
structure Region where
  left : Interpreter
  right : Interpreter
  inside : Nat → Prop
  /-- Frames made since the start are inside. -/
  new_inside : ∀ frame, left.scopes.frames.size ≤ frame → inside frame

namespace Region

variable {region : Region}

/-- One object in both runs that captures no frame outside of the region. -/
structure Holds (region : Region) (left right : Callable) : Prop where
  same : Callable.Same region.left.nextIdentity region.right.nextIdentity left right
  captured_inside : ∀ closure ∈ left.captured, region.inside closure

/-- Values that are the same on both sides and lead to nothing outside of the region. -/
abbrev Values (region : Region) : Value → Value → Prop :=
  Value.Alike region.Holds

/-- States of both runs that agree on the region, from which no frame inside leads out, and in which
the frames outside are as they were. -/
structure Related (region : Region) (left right : Interpreter) : Prop where
  size_eq : right.scopes.frames.size = left.scopes.frames.size
  grown : region.left.scopes.frames.size ≤ left.scopes.frames.size
  callDepth_eq : left.callDepth = right.callDepth
  output_eq : left.output = right.output
  clock_eq : left.clock = right.clock
  made : ∃ made, left.nextIdentity = region.left.nextIdentity + made ∧
    right.nextIdentity = region.right.nextIdentity + made
  enclosing_eq : ∀ frame, region.inside frame →
    left.scopes.enclosing frame = right.scopes.enclosing frame
  enclosing_inside : ∀ frame, region.inside frame →
    ∀ outer ∈ left.scopes.enclosing frame, region.inside outer
  bound_alike : ∀ frame, region.inside frame → ∀ name,
    Option.Rel region.Values (left.scopes.bound frame name) (right.scopes.bound frame name)
  left_kept : ∀ frame, ¬region.inside frame →
    left.scopes.frames[frame]? = region.left.scopes.frames[frame]?
  right_kept : ∀ frame, ¬region.inside frame →
    right.scopes.frames[frame]? = region.right.scopes.frames[frame]?

namespace Related

variable {left right : Interpreter}

/-- A name is found in the same frame of the region in both states, or in none. -/
theorem locate (related : region.Related left right) (name : String) {frame : Nat}
    (inside : region.inside frame) :
    LocatesAlike region.Holds (fun owner other => owner = other ∧ region.inside owner)
      (left.scopes.locate name frame) (right.scopes.locate name frame) := by
  induction frame using Nat.strongRecOn with
  | ind frame ih =>
      have alike := related.bound_alike frame inside name
      rw [Scopes.locate_eq, Scopes.locate_eq, ← related.enclosing_eq frame inside]
      generalize left.scopes.bound frame name = found,
        right.scopes.bound frame name = otherFound at alike ⊢
      -- The walk stops at the same frame on both sides, and the next frame is inside again.
      cases alike with
      | some alike => exact .some ⟨⟨rfl, inside⟩, alike⟩
      | none =>
          cases outer_eq : left.scopes.enclosing frame with
          | none => exact .none
          | some outer =>
              exact ih outer (Scopes.lt_of_enclosing outer_eq)
                (related.enclosing_inside frame inside outer outer_eq)

/-- Defining a name in a frame of the region keeps states related. -/
theorem define (related : region.Related left right) {frame : Nat}
    (inside : region.inside frame) (name : String) {value other : Value}
    (alike : region.Values value other) :
    region.Related { left with scopes := left.scopes.define frame name value }
      { right with scopes := right.scopes.define frame name other } := by
  -- A frame of the region need not exist yet, and then there is nothing to define a name in.
  by_cases isFrame : frame < left.scopes.frames.size
  · have leftRebound := Scopes.rebound_define isFrame name value
    have rightRebound := Scopes.rebound_define (related.size_eq ▸ isFrame) name other
    have unchanged : ∀ outside, ¬region.inside outside → frame ≠ outside := by
      rintro outside not_inside rfl
      exact not_inside inside
    refine { related with
      size_eq := ?_, grown := ?_, enclosing_eq := ?_, enclosing_inside := ?_, bound_alike := ?_,
      left_kept := ?_, right_kept := ?_ }
    · rw [leftRebound.size_eq, rightRebound.size_eq, related.size_eq]
    · rw [leftRebound.size_eq]
      exact related.grown
    · rw [leftRebound.enclosing_eq, rightRebound.enclosing_eq]
      exact related.enclosing_eq
    · rw [leftRebound.enclosing_eq]
      exact related.enclosing_inside
    · intro asked asked_inside askedName
      rw [leftRebound.bound_eq, rightRebound.bound_eq]
      split
      · exact .some alike
      · exact related.bound_alike asked asked_inside askedName
    · intro outside not_inside
      rw [← related.left_kept outside not_inside]
      exact (Array.getElem?_modify ..).trans (if_neg (unchanged outside not_inside))
    · intro outside not_inside
      rw [← related.right_kept outside not_inside]
      exact (Array.getElem?_modify ..).trans (if_neg (unchanged outside not_inside))
  · rw [Scopes.define_of_not_lt isFrame, Scopes.define_of_not_lt (related.size_eq ▸ isFrame)]
    exact related

/-- A new frame below one of the region is in the region, and keeps states related. -/
theorem push (related : region.Related left right) {frame : Nat}
    (inside : region.inside frame) :
    region.Related { left with scopes := left.scopes.push (some frame) }
      { right with scopes := right.scopes.push (some frame) } := by
  have old : ∀ outside, ¬region.inside outside → outside ≠ left.scopes.frames.size := by
    rintro outside not_inside rfl
    exact not_inside (region.new_inside _ related.grown)
  refine { related with
    size_eq := ?_, grown := ?_, enclosing_eq := ?_, enclosing_inside := ?_, bound_alike := ?_,
    left_kept := ?_, right_kept := ?_ }
  · rw [Scopes.size_push, Scopes.size_push, related.size_eq]
  · rw [Scopes.size_push]
    exact Nat.le_succ_of_le related.grown
  · intro asked asked_inside
    rw [Scopes.enclosing_push, Scopes.enclosing_push, related.size_eq,
      related.enclosing_eq asked asked_inside]
  · intro asked asked_inside outer outer_mem
    rw [Scopes.enclosing_push] at outer_mem
    split at outer_mem
    · obtain ⟨frame_eq, -⟩ := Option.filter_eq_some_iff.mp outer_mem
      exact Option.some.inj frame_eq ▸ inside
    · exact related.enclosing_inside asked asked_inside outer outer_mem
  · rw [Scopes.bound_push, Scopes.bound_push]
    exact related.bound_alike
  · intro outside not_inside
    rw [← related.left_kept outside not_inside]
    exact (Array.getElem?_push ..).trans (if_neg (old outside not_inside))
  · intro outside not_inside
    rw [← related.right_kept outside not_inside]
    exact (Array.getElem?_push ..).trans (if_neg (related.size_eq ▸ old outside not_inside))

end Related

/-- The region as a correspondence: states that agree on it, and its own frames. -/
def correspondence (region : Region) : Correspondence where
  states := region.Related
  objects := region.Holds
  frames frame other := frame = other ∧ region.inside frame

theorem isKept (region : Region) : region.correspondence.IsKept where
  output_eq related := related.output_eq
  clock_eq related := related.clock_eq
  callDepth_eq related := related.callDepth_eq
  withOutput related output := { related with output_eq := rfl }
  withClock related clock := { related with clock_eq := rfl }
  withCallDepth related callDepth := { related with callDepth_eq := rfl }
  function_corresponds {left right} holds := by
    rcases left with ⟨identity, function⟩
    rcases right with ⟨otherIdentity, otherFunction⟩
    obtain rfl : function = otherFunction := holds.same.function_eq
    cases function with
    | clock => exact .clock
    | declared declaration closure =>
        exact .declared declaration ⟨rfl, holds.captured_inside closure rfl⟩
  identity_iff holds holds' := holds.same.identity.eq_iff_eq holds'.same.identity
  lookup := by
    rintro frame _ ⟨rfl, inside⟩ name
    exact lockstep_lookup (fun _ _ related => related.locate name.lexeme inside) rfl
  assign := by
    rintro frame _ ⟨rfl, inside⟩ name left right alike
    apply lockstep_assign (fun _ _ related => related.locate name.lexeme inside) rfl alike
    rintro state other related owner _ ⟨rfl, owner_inside⟩
    exact related.define owner_inside name.lexeme alike
  define := by
    rintro frame _ ⟨rfl, inside⟩ name left right alike
    apply lockstep_modify
    intro state other related
    exact related.define inside name alike
  newFrame := by
    rintro frame _ ⟨rfl, inside⟩ state other related
    exact .ok ⟨related.size_eq.symm, region.new_inside _ related.grown⟩ (related.push inside)
  newCallable := by
    rintro frame _ ⟨rfl, inside⟩ declaration state other related
    -- The new objects may have different numbers, but as many were made before them.
    obtain ⟨made, left_made, right_made⟩ := related.made
    refine .ok (.callable ⟨⟨rfl, ?_⟩, ?_⟩) { related with made := ⟨made + 1, ?_, ?_⟩ }
    · rw [left_made, right_made]
      exact .since made
    · rintro closure ⟨⟩
      exact inside
    · rw [left_made, Nat.add_assoc]
    · rw [right_made, Nat.add_assoc]

/-- The frames within reach of a frame at the start, and all frames made since. -/
def within (frame : Nat) (left right : Interpreter) : Region where
  left
  right
  inside other := left.scopes.frames.size ≤ other ∨ left.scopes.Reachable frame other
  new_inside _ isNew := .inl isNew

theorem values_of_same {value other : Value}
    (same : Value.Same region.left.nextIdentity region.right.nextIdentity value other)
    (captured_inside : ∀ closure ∈ value.captured, region.inside closure) :
    region.Values value other := by
  cases same with
  | plain isPlain => exact .plain isPlain
  | callable same => exact .callable ⟨same, captured_inside⟩

theorem same_of_values {value other : Value} (alike : region.Values value other) :
    Value.Same region.left.nextIdentity region.right.nextIdentity value other := by
  cases alike with
  | plain isPlain => exact .plain isPlain
  | callable holds => exact .callable holds.same

theorem captured_inside_of_values {value other : Value} (alike : region.Values value other) :
    ∀ closure ∈ value.captured, region.inside closure := by
  cases alike with
  | plain isPlain =>
      cases value with
      | callable => cases isPlain
      | nil | boolean | number | string => rintro closure ⟨⟩
  | callable holds => exact holds.captured_inside

namespace Related

variable {left right : Interpreter}

theorem agreeAt (related : region.Related left right) {frame : Nat}
    (inside : region.inside frame) :
    Scopes.AgreeAt region.left.nextIdentity region.right.nextIdentity left.scopes right.scopes
      frame where
  enclosing_eq := related.enclosing_eq frame inside
  bound_same name := by
    have alike := related.bound_alike frame inside name
    generalize left.scopes.bound frame name = found,
      right.scopes.bound frame name = otherFound at alike ⊢
    cases alike with
    | none => exact .none
    | some alike => exact .some (same_of_values alike)

/-- Nothing outside of the region is within reach of it. -/
theorem inside_of_reachable (related : region.Related left right) {frame other : Nat}
    (inside : region.inside frame) (reachable : left.scopes.Reachable frame other) :
    region.inside other := by
  induction reachable with
  | refl => exact inside
  | @tail middle last _ leads middle_inside =>
      cases leads with
      | enclosing outer_eq => exact related.enclosing_inside middle middle_inside last outer_eq
      | @captured name value _ bound_eq captured_eq =>
          have alike := related.bound_alike middle middle_inside name
          rw [bound_eq] at alike
          generalize right.scopes.bound middle name = otherFound at alike
          cases alike with
          | some alike => exact captured_inside_of_values alike last captured_eq

end Related

end Region

/-- The frame that the result of a statement captures. -/
def Completion.captured : Completion → Option Nat
  | .returning value => value.captured
  | _ => none

namespace Interpreter

/-- States with as many frames, calls in progress, output and time, which agree on every frame
within reach of a frame. They may have made different numbers of objects. -/
structure AgreeFrom (frame : Nat) (left right : Interpreter) : Prop where
  size_eq : left.scopes.frames.size = right.scopes.frames.size
  callDepth_eq : left.callDepth = right.callDepth
  output_eq : left.output = right.output
  clock_eq : left.clock = right.clock
  agreeAt : ∀ other, left.scopes.Reachable frame other →
    Scopes.AgreeAt left.nextIdentity right.nextIdentity left.scopes right.scopes other

/-- States after a run in a frame agree again on what is within reach of the frame and of the frame
that its result captures; and in both of them what was out of reach before the run is as it was. -/
structure KeptWithinReach (frame : Nat) (left right : Interpreter) (captured : Option Nat)
    (leftAfter rightAfter : Interpreter) : Prop where
  size_eq : leftAfter.scopes.frames.size = rightAfter.scopes.frames.size
  callDepth_eq : leftAfter.callDepth = rightAfter.callDepth
  output_eq : leftAfter.output = rightAfter.output
  clock_eq : leftAfter.clock = rightAfter.clock
  agreeAt : ∀ root other, root = frame ∨ captured = some root →
    leftAfter.scopes.Reachable root other →
    Scopes.AgreeAt left.nextIdentity right.nextIdentity leftAfter.scopes rightAfter.scopes other
  left_untouched : ∀ other < left.scopes.frames.size, ¬left.scopes.Reachable frame other →
    leftAfter.scopes.frames[other]? = left.scopes.frames[other]?
  right_untouched : ∀ other < right.scopes.frames.size, ¬right.scopes.Reachable frame other →
    rightAfter.scopes.frames[other]? = right.scopes.frames[other]?

/-- Two runs in a frame end in the same way, with the same result or the same error, and leave
states that agree again. -/
inductive EndAlike {α : Type} (frame : Nat) (left right : Interpreter) (same : α → α → Prop)
    (captured : α → Option Nat) :
    EStateM.Result Interruption Interpreter α → EStateM.Result Interruption Interpreter α →
      Prop where
  | ok {result other : α} {leftAfter rightAfter : Interpreter} (results_same : same result other)
      (kept : KeptWithinReach frame left right (captured result) leftAfter rightAfter) :
      EndAlike frame left right same captured (.ok result leftAfter) (.ok other rightAfter)
  | error {stop : Interruption} {leftAfter rightAfter : Interpreter}
      (kept : KeptWithinReach frame left right none leftAfter rightAfter) :
      EndAlike frame left right same captured (.error stop leftAfter) (.error stop rightAfter)

variable {frame : Nat} {left right : Interpreter}

theorem AgreeFrom.related (agree : AgreeFrom frame left right) :
    (Region.within frame left right).Related left right where
  size_eq := agree.size_eq.symm
  grown := Nat.le_refl _
  callDepth_eq := agree.callDepth_eq
  output_eq := agree.output_eq
  clock_eq := agree.clock_eq
  made := ⟨0, rfl, rfl⟩
  enclosing_eq := by
    rintro other (isNew | reachable)
    · rw [Scopes.enclosing_of_not_lt (Nat.not_lt.mpr isNew),
        Scopes.enclosing_of_not_lt (Nat.not_lt.mpr (agree.size_eq ▸ isNew))]
    · exact (agree.agreeAt other reachable).enclosing_eq
  enclosing_inside := by
    rintro other (isNew | reachable) outer outer_eq
    · rw [Scopes.enclosing_of_not_lt (Nat.not_lt.mpr isNew)] at outer_eq
      cases outer_eq
    · exact .inr (reachable.tail (.enclosing outer_eq))
  bound_alike := by
    rintro other (isNew | reachable) name
    · rw [Scopes.bound_of_not_lt (Nat.not_lt.mpr isNew),
        Scopes.bound_of_not_lt (Nat.not_lt.mpr (agree.size_eq ▸ isNew))]
      exact .none
    · have same := (agree.agreeAt other reachable).bound_same name
      have leads : ∀ value, left.scopes.bound other name = some value →
          ∀ closure ∈ value.captured, left.scopes.Reachable frame closure := by
        intro value bound_eq closure captured_eq
        exact reachable.tail (.captured bound_eq captured_eq)
      generalize left.scopes.bound other name = found,
        right.scopes.bound other name = otherFound at same leads ⊢
      cases same with
      | none => exact .none
      | some same =>
          refine .some (Region.values_of_same same ?_)
          intro closure captured_eq
          exact .inr (leads _ rfl closure captured_eq)
  left_kept _ _ := rfl
  right_kept _ _ := rfl

theorem AgreeFrom.kept (agree : AgreeFrom frame left right) {leftAfter rightAfter : Interpreter}
    (related : (Region.within frame left right).Related leftAfter rightAfter)
    {captured : Option Nat}
    (captured_inside : ∀ root ∈ captured, (Region.within frame left right).inside root) :
    KeptWithinReach frame left right captured leftAfter rightAfter where
  size_eq := related.size_eq.symm
  callDepth_eq := related.callDepth_eq
  output_eq := related.output_eq
  clock_eq := related.clock_eq
  agreeAt := by
    intro root other isRoot reachable
    have inside : (Region.within frame left right).inside root := by
      rcases isRoot with rfl | captured_eq
      · exact .inr .refl
      · exact captured_inside root captured_eq
    exact related.agreeAt (related.inside_of_reachable inside reachable)
  left_untouched := by
    intro other isFrame unreachable
    apply related.left_kept
    rintro (isNew | reachable)
    · exact absurd isFrame (Nat.not_lt.mpr isNew)
    · exact unreachable reachable
  right_untouched := by
    intro other isFrame unreachable
    apply related.right_kept
    rintro (isNew | reachable)
    · exact absurd (agree.size_eq ▸ isFrame) (Nat.not_lt.mpr isNew)
    -- The region is what the left state reaches, and the right state reaches the same.
    · exact unreachable (Scopes.reachable_of_agree agree.agreeAt reachable)

theorem AgreeFrom.endAlike (agree : AgreeFrom frame left right) {α : Type}
    {gives same : α → α → Prop} {captured : α → Option Nat}
    (results_same : ∀ result other, gives result other → same result other)
    (captured_inside : ∀ result other, gives result other → ∀ root ∈ captured result,
      (Region.within frame left right).inside root)
    {outcome otherOutcome : EStateM.Result Interruption Interpreter α}
    (outcomes : OutcomesMatch (Region.within frame left right).Related Eq gives
      outcome otherOutcome) :
    EndAlike frame left right same captured outcome otherOutcome := by
  cases outcomes with
  | ok given related =>
      exact .ok (results_same _ _ given) (agree.kept related (captured_inside _ _ given))
  | error stops_same related =>
      subst stops_same
      exact .error (agree.kept related (by rintro root ⟨⟩))

/-- Evaluation sees and touches only what is within reach of the frame that it runs in. From states
that agree on that it ends in the same way and prints the same text; the states then agree on what
is within reach of the frame or of the result; and what was out of reach is as it was. -/
theorem evaluation_within_reach (agree : AgreeFrom frame left right) (fuel : Nat) :
    (∀ tree, EndAlike frame left right (Value.Same left.nextIdentity right.nextIdentity)
      Value.captured (evaluate fuel frame tree left) (evaluate fuel frame tree right)) ∧
    (∀ statement, EndAlike frame left right
      (CompletionsMatch (Value.Same left.nextIdentity right.nextIdentity))
      Completion.captured (execute fuel frame statement left)
      (execute fuel frame statement right)) ∧
    (left.nextIdentity = right.nextIdentity → ∀ value other,
      Value.Same left.nextIdentity right.nextIdentity value other ↔ value = other) := by
  have within := (Region.within frame left right).isKept.within fuel
  have frames_match : (Region.within frame left right).correspondence.frames frame frame :=
    ⟨rfl, .inr .refl⟩
  refine ⟨?_, ?_, ?_⟩
  · intro tree
    refine agree.endAlike ?_ ?_ (within.evaluate frames_match tree left right agree.related)
    · intro value other alike
      exact Region.same_of_values alike
    · intro value other alike
      exact Region.captured_inside_of_values alike
  · intro statement
    refine agree.endAlike ?_ ?_ (within.execute frames_match statement left right agree.related)
    · rintro completion other (_ | _ | _ | alike)
      · exact .normal
      · exact .breaking
      · exact .continuing
      · exact .returning (Region.same_of_values alike)
    · rintro completion other (_ | _ | _ | alike) root root_mem
      · cases root_mem
      · cases root_mem
      · cases root_mem
      · exact Region.captured_inside_of_values alike root root_mem
  · intro counters_eq value other
    rw [counters_eq]
    exact Value.same_self_iff

/-- A new interpreter with one more frame, which is out of reach. -/
def withSpareFrame : Interpreter :=
  let state := start .unlimited (.ofReadings fun _ => 0)
  { state with scopes := state.scopes.push none }

/-- The same interpreter after a function was made and bound in the frame out of reach. -/
def withSpareFunction : Interpreter :=
  let name : Name := ⟨⟨.identifier, "spare", none, 1⟩, rfl⟩
  { withSpareFrame with
    scopes := withSpareFrame.scopes.define 1 "spare" (.callable ⟨1, .declared ⟨name, [], []⟩ 1⟩)
    nextIdentity := 2 }

/-- From the globals the function is out of reach, so no run there makes a difference to it or is
made different by it. -/
theorem evaluation_within_reach_of_globals :
    AgreeFrom globals withSpareFrame withSpareFunction ∧
      ∀ fuel statement, EndAlike globals withSpareFrame withSpareFunction
        (CompletionsMatch (Value.Same 1 2)) Completion.captured
        (execute fuel globals statement withSpareFrame)
        (execute fuel globals statement withSpareFunction) := by
  have bound_eq : ∀ name, withSpareFrame.scopes.bound globals name =
      if "clock" = name then some (.callable ⟨0, .clock⟩) else none := fun _ => rfl
  have only_globals : ∀ other, withSpareFrame.scopes.Reachable globals other →
      other = globals := by
    intro other reachable
    induction reachable with
    | refl => rfl
    | tail _ leads ih =>
        subst ih
        cases leads with
        | enclosing outer_eq => cases outer_eq
        | captured found captured_eq =>
            rw [bound_eq] at found
            split at found <;> cases found
            cases captured_eq
  have agree : AgreeFrom globals withSpareFrame withSpareFunction := by
    refine ⟨rfl, rfl, rfl, rfl, ?_⟩
    intro other reachable
    obtain rfl := only_globals other reachable
    refine ⟨rfl, ?_⟩
    intro name
    have other_bound_eq : withSpareFunction.scopes.bound globals name =
        if "clock" = name then some (.callable ⟨0, .clock⟩) else none := rfl
    rw [bound_eq, other_bound_eq]
    split
    · exact .some (.callable ⟨rfl, .earlier (by decide) (by decide)⟩)
    · exact .none
  exact ⟨agree, fun fuel => (evaluation_within_reach agree fuel).2.1⟩

end Interpreter

end Scriptlet
