import Mathlib.Data.List.Basic
import Mathlib.Order.Basic
import Scriptlet.Proofs.Evaluation.Compositional

/-!
# The call depth

The call depth of a state counts the calls in progress. A run leaves it as it was, however the run
ends; in between it is what it was at the start plus the calls in progress within the run, and never
more than the limit. A call is too deep exactly when it is attempted at the limit.
-/

namespace Scriptlet

open Evaluation

/-- Steps lead from one moment to another without a gap. -/
def Linked (first : Moment) : List Step → Moment → Prop
  | [], last => first = last
  | step :: others, last => step.before = first ∧ Linked step.after others last

theorem Linked.append {first middle last : Moment} {steps others : List Step}
    (linked : Linked first steps middle) (others_linked : Linked middle others last) :
    Linked first (steps ++ others) last := by
  induction steps generalizing first with
  | nil =>
      cases linked
      exact others_linked
  | cons step steps ih => exact ⟨linked.1, ih linked.2⟩

theorem Linked.within {first last : Moment} {steps : List Step} (linked : Linked first steps last)
    (paren : Token.OfKind .rightParen) :
    Linked (first.within paren) (steps.map (·.within paren)) (last.within paren) := by
  induction steps generalizing first with
  | nil => exact congrArg (Moment.within paren) linked
  | cons step steps ih => exact ⟨congrArg (Moment.within paren) linked.1, ih linked.2⟩

/-- At a moment the call depth is that of the start plus the calls in progress, within the limit. -/
def Moment.Counted (depth : Nat) (moment : Moment) : Prop :=
  moment.state.callDepth = depth + moment.calls.length ∧ moment.state.callDepth ≤ maxCallDepth

namespace Step

/-- A step changes the calls in progress by entering or leaving the innermost one. -/
def FollowsCalls (step : Step) : Prop :=
  match step.action with
  | .enter paren => step.after.calls = step.before.calls ++ [paren]
  | .leave paren => step.before.calls = step.after.calls ++ [paren]
  | .basic | .print _ _ | .attempt _ _ _ => step.after.calls = step.before.calls

/-- What is counted at both ends of a step. -/
structure Counted (depth : Nat) (step : Step) : Prop where
  calls : step.FollowsCalls
  before : step.before.Counted depth
  after : step.after.Counted depth

/-- A step attempts a call that is too deep: callee and arguments go together, and no call can be
added to those in progress. -/
def Overflows (paren : Token.OfKind .rightParen) (step : Step) : Prop :=
  ∃ object arguments, step.action = .attempt paren (.callable object) arguments ∧
    object.arity = arguments.length ∧ step.before.state.callDepth = maxCallDepth

theorem overflows_attempt {paren other : Token.OfKind .rightParen} {callee : Value}
    {arguments : List Value} {before after : Moment} :
    Overflows other ⟨.attempt paren callee arguments, before, after⟩ ↔
      paren = other ∧ (∃ object, callee = .callable object ∧ object.arity = arguments.length) ∧
        before.state.callDepth = maxCallDepth := by
  constructor
  · rintro ⟨object, _, ⟨⟩, fits, deep⟩
    exact ⟨rfl, ⟨object, rfl, fits⟩, deep⟩
  · rintro ⟨rfl, ⟨object, rfl, fits⟩, deep⟩
    exact ⟨object, arguments, rfl, fits, deep⟩

theorem Counted.within {depth : Nat} {step : Step} (counted : step.Counted (depth + 1))
    (paren : Token.OfKind .rightParen) : (step.within paren).Counted depth where
  calls := by
    have calls := counted.calls
    revert calls
    rcases step with ⟨action, before, after⟩
    cases action <;> exact congrArg (paren :: ·)
  before := by
    have depth_eq := counted.before.1
    refine ⟨?_, counted.before.2⟩
    simp only [Step.within, Moment.within, List.length_cons]
    omega
  after := by
    have depth_eq := counted.after.1
    refine ⟨?_, counted.after.2⟩
    simp only [Step.within, Moment.within, List.length_cons]
    omega

end Step

/-- A run ends because of a call that is too deep. -/
def Evaluation.Outcome.IsOverflow {α : Type} (paren : Token.OfKind .rightParen) :
    Outcome α → Prop
  | .ok _ _ => False
  | .error stop _ => stop = .error (.stackOverflow paren)

theorem Evaluation.Outcome.isOverflow_withState {α : Type} {paren : Token.OfKind .rightParen}
    {change : Interpreter → Interpreter} {outcome : Outcome α} :
    IsOverflow paren (withState change outcome) ↔ IsOverflow paren outcome := by
  cases outcome <;> rfl

/-- The record of a run from a state accounts for the call depth. -/
structure Record.Balanced {α : Type} (state : Interpreter) (record : Record α) : Prop where
  linked : Linked ⟨[], state⟩ record.steps ⟨[], Outcome.state record.outcome⟩
  counted : ∀ step ∈ record.steps, step.Counted state.callDepth
  restored : (Outcome.state record.outcome).callDepth = state.callDepth
  overflow : ∀ paren,
    Outcome.IsOverflow paren record.outcome ↔ ∃ step ∈ record.steps, step.Overflows paren

namespace Recorded

/-- Every run within the limit accounts for the call depth. -/
def CountsCalls {α : Type} (computation : Recorded α) : Prop :=
  ∀ state : Interpreter, state.callDepth ≤ maxCallDepth →
    (computation.run state).Balanced state

variable {α β : Type}

theorem countsCalls_pure (value : α) : CountsCalls (pure value : Recorded α) := by
  intro state _
  exact ⟨rfl, by simp, rfl, by simp [Outcome.IsOverflow]⟩

theorem CountsCalls.bind {computation : Recorded α} {next : α → Recorded β}
    (counts : CountsCalls computation) (next_counts : ∀ value, CountsCalls (next value)) :
    CountsCalls (computation >>= next) := by
  intro state within_limit
  have first := counts state within_limit
  rcases ended : computation.run state with ⟨⟨value, after⟩ | ⟨stop, after⟩, steps⟩
  · rw [ended] at first
    rw [run_bind_of_ok ended]
    have restored : after.callDepth = state.callDepth := first.restored
    have second := next_counts value after (restored ▸ within_limit)
    refine ⟨first.linked.append second.linked, ?_, second.restored.trans restored, ?_⟩
    · intro step step_mem
      rcases List.mem_append.mp step_mem with earlier | later
      · exact first.counted step earlier
      · exact restored ▸ second.counted step later
    · intro paren
      have none_before : ¬∃ step ∈ steps, step.Overflows paren := by
        rw [← first.overflow paren]
        rintro ⟨_, ⟨⟩⟩
      rw [second.overflow paren]
      constructor
      · rintro ⟨step, step_mem, overflows⟩
        exact ⟨step, List.mem_append_right _ step_mem, overflows⟩
      · rintro ⟨step, step_mem, overflows⟩
        rcases List.mem_append.mp step_mem with earlier | later
        · exact absurd ⟨step, earlier, overflows⟩ none_before
        · exact ⟨step, later, overflows⟩
  · rw [ended] at first
    rw [run_bind_of_error ended]
    exact ⟨first.linked, first.counted, first.restored, first.overflow⟩

/-- Steps that leave the calls alone. -/
theorem countsCalls_inStep {action : Action} {computation : Evaluation α}
    (still : action = .basic ∨ ∃ keyword value, action = .print keyword value)
    (kept : ∀ state, (Outcome.state (computation state)).callDepth = state.callDepth)
    (no_overflow : ∀ state paren, ¬Outcome.IsOverflow paren (computation state)) :
    CountsCalls (inStep action computation) := by
  intro state within_limit
  refine ⟨⟨rfl, rfl⟩, ?_, kept state, ?_⟩
  · simp only [inStep, List.mem_singleton]
    rintro step rfl
    refine ⟨?_, ⟨rfl, within_limit⟩, ⟨kept state, (kept state).trans_le within_limit⟩⟩
    rcases still with rfl | ⟨keyword, value, rfl⟩ <;> rfl
  · intro paren
    refine iff_of_false (no_overflow state paren) ?_
    simp only [inStep, List.mem_singleton]
    rintro ⟨step, rfl, object, arguments, action_eq, -⟩
    rcases still with rfl | ⟨keyword, value, rfl⟩ <;> cases action_eq

theorem countsCalls_basic {computation : Evaluation α} (quiet : Quiet computation) :
    CountsCalls (inStep .basic computation) := by
  apply countsCalls_inStep (.inl rfl) quiet.callDepth_eq
  intro state paren overflows
  cases ended : computation state with
  | ok value after =>
      rw [ended] at overflows
      exact overflows
  | error stop after =>
      rw [ended] at overflows
      cases overflows
      exact quiet.no_overflow state paren after ended

theorem countsCalls_print (keyword : Token.OfKind .printWord) (value : Value) :
    CountsCalls (inStep (.print keyword value) (Evaluation.print keyword value)) := by
  apply countsCalls_inStep (.inr ⟨keyword, value, rfl⟩) (callDepth_print keyword value)
  intro state paren overflows
  simp only [Evaluation.print] at overflows
  split at overflows
  · exact overflows
  · cases overflows

/-- A call that is entered counts for as long as its body runs. -/
theorem balanced_deepen (paren : Token.OfKind .rightParen) {body : Recorded α}
    {state : Interpreter} (shallow : state.callDepth < maxCallDepth)
    (balanced : (body.run state.entered).Balanced state.entered) :
    ((deepen paren body).run state).Balanced state := by
  rw [run_deepen_of_lt shallow]
  have entered_counted : Moment.Counted state.callDepth ⟨[paren], state.entered⟩ := ⟨rfl, shallow⟩
  have end_depth : (Outcome.state (body.run state.entered).outcome).callDepth
      = state.callDepth + 1 := balanced.restored
  have left_depth : (Outcome.state (body.run state.entered).outcome).left.callDepth
      = state.callDepth := by
    rw [Interpreter.left, end_depth, Nat.add_sub_cancel]
  refine ⟨?_, ?_, ?_, ?_⟩
  · simp only [Outcome.state_withState]
    exact ⟨rfl, (balanced.linked.within paren).append ⟨rfl, rfl⟩⟩
  · intro step step_mem
    simp only [List.mem_cons, List.mem_append, List.mem_map, List.not_mem_nil, or_false] at step_mem
    rcases step_mem with rfl | ⟨inner, inner_mem, rfl⟩ | rfl
    · exact ⟨rfl, ⟨rfl, Nat.le_of_lt shallow⟩, entered_counted⟩
    · exact (balanced.counted inner inner_mem).within paren
    · exact ⟨rfl, ⟨end_depth, end_depth.trans_le shallow⟩,
        ⟨left_depth, left_depth.trans_le (Nat.le_of_lt shallow)⟩⟩
  · simp only [Outcome.state_withState, left_depth]
  · intro other
    rw [Outcome.isOverflow_withState, balanced.overflow other]
    constructor
    · rintro ⟨inner, inner_mem, overflows⟩
      refine ⟨inner.within paren, ?_, overflows⟩
      exact List.mem_cons_of_mem _ (List.mem_append_left _ (List.mem_map_of_mem inner_mem))
    · rintro ⟨step, step_mem, object, arguments, action_eq, fits, deep⟩
      simp only [List.mem_cons, List.mem_append, List.mem_map, List.not_mem_nil, or_false]
        at step_mem
      rcases step_mem with rfl | ⟨inner, inner_mem, rfl⟩ | rfl
      · cases action_eq
      · exact ⟨inner, inner_mem, object, arguments, action_eq, fits, deep⟩
      · cases action_eq

/-- What an attempted call comes to before it is entered. -/
theorem resolve_cases (paren : Token.OfKind .rightParen) (callee : Value) (count : Nat)
    (state : Interpreter) :
    (∃ object, callee = .callable object ∧ object.arity = count ∧
        resolve paren callee count state = .ok object state) ∨
      ∃ error, (∀ other, error ≠ .stackOverflow other) ∧
        (∀ object, callee = .callable object → object.arity ≠ count) ∧
        resolve paren callee count state = .error (.error error) state := by
  cases callee with
  | callable object =>
      by_cases fits : object.arity = count
      · exact .inl ⟨object, rfl, fits, by simp only [resolve, fits, if_true]; rfl⟩
      · refine .inr ⟨.arityMismatch paren object.arity count, by simp, ?_, ?_⟩
        · rintro _ ⟨⟩
          exact fits
        · simp only [resolve, fits, if_false]
          rfl
  | nil | boolean | number | string => exact .inr ⟨.notCallable paren, by simp, by simp, rfl⟩

/-- The step that attempts a call does not change the state. -/
theorem run_attempt {paren : Token.OfKind .rightParen} {callee : Value} {arguments : List Value}
    {state : Interpreter} {outcome : Outcome Callable}
    (resolved : resolve paren callee arguments.length state = outcome)
    (unchanged : Outcome.state outcome = state) :
    (inStep (.attempt paren callee arguments) (resolve paren callee arguments.length)).run state =
      ⟨outcome, [⟨.attempt paren callee arguments, ⟨[], state⟩, ⟨[], state⟩⟩]⟩ := by
  simp only [inStep, resolved, unchanged]

theorem countsCalls_call (paren : Token.OfKind .rightParen) (callee : Value)
    (arguments : List Value) {body : Callable → Recorded α}
    (body_counts : ∀ callable, CountsCalls (body callable)) :
    CountsCalls (inStep (.attempt paren callee arguments)
      (resolve paren callee arguments.length) >>= fun callable =>
        deepen paren (body callable)) := by
  intro state within_limit
  have attempt_counted : Step.Counted state.callDepth
      ⟨.attempt paren callee arguments, ⟨[], state⟩, ⟨[], state⟩⟩ :=
    ⟨rfl, ⟨rfl, within_limit⟩, ⟨rfl, within_limit⟩⟩
  rcases resolve_cases paren callee arguments.length state with
    ⟨object, rfl, fits, resolved⟩ | ⟨error, not_deep, unfit, refused⟩
  · rw [run_bind_of_ok (run_attempt resolved rfl)]
    rcases Nat.lt_or_ge state.callDepth maxCallDepth with shallow | deep
    · have entered := balanced_deepen paren shallow (body_counts object _ shallow)
      refine ⟨⟨rfl, entered.linked⟩, ?_, entered.restored, ?_⟩
      · exact List.forall_mem_cons.mpr ⟨attempt_counted, entered.counted⟩
      · intro other
        have too_shallow : ¬Step.Overflows other
            ⟨.attempt paren (.callable object) arguments, ⟨[], state⟩, ⟨[], state⟩⟩ := by
          rw [Step.overflows_attempt]
          rintro ⟨-, -, at_limit⟩
          exact Nat.ne_of_lt shallow at_limit
        rw [entered.overflow other]
        exact (or_iff_right too_shallow).symm.trans (List.exists_mem_cons_iff ..).symm
    · rw [run_deepen_of_le deep]
      refine ⟨⟨rfl, rfl⟩, ?_, rfl, ?_⟩
      · exact List.forall_mem_singleton.mpr attempt_counted
      · intro other
        have overflows_iff : Step.Overflows other
            ⟨.attempt paren (.callable object) arguments, ⟨[], state⟩, ⟨[], state⟩⟩ ↔
              paren = other := by
          rw [Step.overflows_attempt]
          exact and_iff_left ⟨⟨object, rfl, fits⟩, Nat.le_antisymm within_limit deep⟩
        simp only [List.append_nil, List.mem_singleton, exists_eq_left, overflows_iff]
        simp only [Outcome.IsOverflow, Interruption.error.injEq, RuntimeError.stackOverflow.injEq]
  · rw [run_bind_of_error (run_attempt refused rfl)]
    refine ⟨⟨rfl, rfl⟩, ?_, rfl, ?_⟩
    · exact List.forall_mem_singleton.mpr attempt_counted
    · intro other
      simp only [List.mem_singleton, exists_eq_left, Step.overflows_attempt]
      apply iff_of_false
      · rintro ⟨⟩
        exact not_deep other rfl
      · rintro ⟨-, ⟨object, callee_eq, fits⟩, -⟩
        exact unfit object callee_eq fits

theorem compositional_countsCalls : Compositional CountsCalls where
  pure := countsCalls_pure
  bind := CountsCalls.bind
  basic := countsCalls_basic
  print := countsCalls_print
  call := countsCalls_call

end Recorded

end Scriptlet
