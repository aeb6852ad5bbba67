import Scriptlet.Proofs.Evaluation.Evolution

/-!
# Evaluation keeps correspondences

A correspondence says which states, callable objects and frames of two runs belong together, once
and for all. If the steps on frames and objects keep it, so does all of evaluation: in corresponding
frames a tree has the same outcome in both runs, apart from which objects and frames they are.
-/

namespace Scriptlet

/-- What belongs together in two runs of one program. -/
structure Correspondence where
  states : Interpreter → Interpreter → Prop
  objects : Callable → Callable → Prop
  frames : Nat → Nat → Prop

namespace Correspondence

open Evaluation

variable {α β : Type}

/-- Values that correspond. -/
abbrev Values (correspondence : Correspondence) : Value → Value → Prop :=
  Value.Alike correspondence.objects

/-- Corresponding states lead to corresponding outcomes, and errors are the same. -/
abbrev InStep (correspondence : Correspondence) (left : Evaluation α) (right : Evaluation β)
    (gives : α → β → Prop) : Prop :=
  Lockstep correspondence.states Eq left right gives

/-- Corresponding states and objects cannot be told apart from outside, and the steps on frames and
objects keep the correspondence. -/
structure IsKept (correspondence : Correspondence) : Prop where
  output_eq : ∀ {left right}, correspondence.states left right → left.output = right.output
  clock_eq : ∀ {left right}, correspondence.states left right → left.clock = right.clock
  callDepth_eq : ∀ {left right}, correspondence.states left right →
    left.callDepth = right.callDepth
  withOutput : ∀ {left right}, correspondence.states left right → ∀ output,
    correspondence.states { left with output } { right with output }
  withClock : ∀ {left right}, correspondence.states left right → ∀ clock,
    correspondence.states { left with clock } { right with clock }
  withCallDepth : ∀ {left right}, correspondence.states left right → ∀ callDepth,
    correspondence.states { left with callDepth } { right with callDepth }
  function_corresponds : ∀ {left right}, correspondence.objects left right →
    left.function.Corresponds correspondence.frames right.function
  identity_iff : ∀ {left right left' right'}, correspondence.objects left right →
    correspondence.objects left' right' →
      (left.identity = left'.identity ↔ right.identity = right'.identity)
  lookup : ∀ {frame other}, correspondence.frames frame other → ∀ name,
    correspondence.InStep (lookup frame name) (lookup other name) correspondence.Values
  assign : ∀ {frame other}, correspondence.frames frame other → ∀ name {left right},
    correspondence.Values left right →
      correspondence.InStep (assign frame name left) (assign other name right)
        correspondence.Values
  define : ∀ {frame other}, correspondence.frames frame other → ∀ name {left right},
    correspondence.Values left right →
      correspondence.InStep (define frame name left) (define other name right) fun _ _ => True
  newFrame : ∀ {frame other}, correspondence.frames frame other →
    correspondence.InStep (newFrame (some frame)) (newFrame (some other)) correspondence.frames
  newCallable : ∀ {frame other}, correspondence.frames frame other → ∀ declaration,
    correspondence.InStep (newCallable (.declared declaration frame))
      (newCallable (.declared declaration other)) correspondence.Values

/-- A correspondence is an evolution of a single stage, at which all frames that belong together are
partners. -/
def evolution (correspondence : Correspondence) : Evolution Unit where
  before _ _ := True
  states _ := correspondence.states
  objects _ := correspondence.objects
  frames _ := correspondence.frames
  partners _ := correspondence.frames
  before_refl _ := trivial
  before_trans _ _ := trivial
  objects_later _ _ _ := id
  frames_later _ := id
  partners_later _ := id
  frames_of_partners := id

variable {correspondence : Correspondence}

theorem inStep_iff {left : Evaluation α} {right : Evaluation β} {gives : α → β → Prop} :
    correspondence.evolution.InStep () left right (fun _ => gives) ↔
      correspondence.InStep left right gives := by
  constructor
  · intro inStep state other states_match
    obtain ⟨_, _, outcomes⟩ := inStep () trivial state other states_match
    exact outcomes
  · intro inStep
    exact Evolution.inStep_of_lockstep fun _ _ => inStep

theorem IsKept.evolution (kept : correspondence.IsKept) : correspondence.evolution.IsKept where
  output_eq := kept.output_eq
  clock_eq := kept.clock_eq
  callDepth_eq := kept.callDepth_eq
  withOutput := kept.withOutput
  withClock := kept.withClock
  withCallDepth := kept.withCallDepth
  function_corresponds := kept.function_corresponds
  identity_iff := kept.identity_iff
  lookup := kept.lookup
  assign := kept.assign
  define := kept.define
  newFrame frames_match := inStep_iff.mpr (kept.newFrame frames_match)
  newCallable := kept.newCallable

/-- Evaluation with some fuel keeps the correspondence. -/
structure KeptWithin (correspondence : Correspondence) (fuel : Nat) : Prop where
  evaluate : ∀ {frame other}, correspondence.frames frame other → ∀ tree,
    correspondence.InStep (Interpreter.evaluate fuel frame tree)
      (Interpreter.evaluate fuel other tree) correspondence.Values
  invoke : ∀ {callable other}, correspondence.objects callable other → ∀ {arguments others},
    List.Forall₂ correspondence.Values arguments others →
      correspondence.InStep (Interpreter.invoke fuel callable arguments)
        (Interpreter.invoke fuel other others) correspondence.Values
  execute : ∀ {frame other}, correspondence.frames frame other → ∀ statement,
    correspondence.InStep (Interpreter.execute fuel frame statement)
      (Interpreter.execute fuel other statement) (CompletionsMatch correspondence.Values)

/-- What its steps keep, evaluation keeps. -/
theorem IsKept.within (kept : correspondence.IsKept) (fuel : Nat) :
    KeptWithin correspondence fuel := by
  have within := kept.evolution.within fuel
  exact {
    evaluate := fun frames_match tree =>
      inStep_iff.mp (within.evaluate frames_match tree)
    invoke := fun corresponding _ _ alike =>
      inStep_iff.mp (within.invoke corresponding alike)
    execute := fun frames_match statement =>
      inStep_iff.mp (within.execute frames_match statement (.inl frames_match)) }

end Correspondence

end Scriptlet
