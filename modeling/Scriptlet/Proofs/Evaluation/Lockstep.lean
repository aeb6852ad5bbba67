import Mathlib.Data.List.Forall2
import Scriptlet.Interpreter.Evaluate

/-!
# Computations in lockstep

`Lockstep` compares two computations. Started in related states, both give related values or both
stop early in related ways, and the states in which they end are related again. So one of them can
be followed on the other, step by step and to the end.

There is one rule for each way in which evaluation puts computations together. The relations
between states, values and interruptions are left open.
-/

namespace Scriptlet.Evaluation

variable {α β γ δ : Type} {related : Interpreter → Interpreter → Prop}
  {stops : Interruption → Interruption → Prop}

/-- Outcomes of one kind with related contents. -/
inductive OutcomesMatch (related : Interpreter → Interpreter → Prop)
    (stops : Interruption → Interruption → Prop) (gives : α → β → Prop) :
    EStateM.Result Interruption Interpreter α → EStateM.Result Interruption Interpreter β →
      Prop where
  | ok {value : α} {other : β} {after otherAfter : Interpreter}
      (values_match : gives value other) (states_related : related after otherAfter) :
      OutcomesMatch related stops gives (.ok value after) (.ok other otherAfter)
  | error {stop otherStop : Interruption} {after otherAfter : Interpreter}
      (stops_match : stops stop otherStop) (states_related : related after otherAfter) :
      OutcomesMatch related stops gives (.error stop after) (.error otherStop otherAfter)

theorem OutcomesMatch.mono {weaker : Interpreter → Interpreter → Prop} {gives : α → β → Prop}
    {outcome : EStateM.Result Interruption Interpreter α}
    {otherOutcome : EStateM.Result Interruption Interpreter β}
    (outcomes : OutcomesMatch related stops gives outcome otherOutcome)
    (weaken : ∀ state other, related state other → weaker state other) :
    OutcomesMatch weaker stops gives outcome otherOutcome := by
  cases outcomes with
  | ok values_match states_related => exact .ok values_match (weaken _ _ states_related)
  | error stops_match states_related => exact .error stops_match (weaken _ _ states_related)

/-- Related states lead to matching outcomes. -/
def Lockstep (related : Interpreter → Interpreter → Prop)
    (stops : Interruption → Interruption → Prop) (left : Evaluation α) (right : Evaluation β)
    (gives : α → β → Prop) : Prop :=
  ∀ state other, related state other → OutcomesMatch related stops gives (left state) (right other)

theorem Lockstep.bind {left : Evaluation α} {right : Evaluation β} {leftNext : α → Evaluation γ}
    {rightNext : β → Evaluation δ} {gives : α → β → Prop} {then_ : γ → δ → Prop}
    (first : Lockstep related stops left right gives)
    (second : ∀ value other, gives value other →
      Lockstep related stops (leftNext value) (rightNext other) then_) :
    Lockstep related stops (left >>= leftNext) (right >>= rightNext) then_ := by
  intro state other states_related
  change OutcomesMatch related stops then_ (EStateM.bind left leftNext state)
    (EStateM.bind right rightNext other)
  have outcomes := first state other states_related
  unfold EStateM.bind
  revert outcomes
  generalize left state = outcome, right other = otherOutcome
  intro outcomes
  cases outcomes with
  | ok values_match states_related => exact second _ _ values_match _ _ states_related
  | error stops_match states_related => exact .error stops_match states_related

theorem lockstep_pure {value : α} {other : β} {gives : α → β → Prop}
    (values_match : gives value other) :
    Lockstep related stops (pure value) (pure other) gives := by
  intro _ _ states_related
  exact .ok values_match states_related

theorem lockstep_fail {error otherError : RuntimeError} {gives : α → β → Prop}
    (errors_match : stops (.error error) (.error otherError)) :
    Lockstep related stops (fail error) (fail otherError) gives := by
  intro _ _ states_related
  exact .error errors_match states_related

theorem lockstep_abort {reason otherReason : Abort} {gives : α → β → Prop}
    (reasons_match : stops (.abort reason) (.abort otherReason)) :
    Lockstep related stops (abort reason) (abort otherReason) gives := by
  intro _ _ states_related
  exact .error reasons_match states_related

theorem lockstep_modify {change otherChange : Interpreter → Interpreter}
    (kept : ∀ state other, related state other → related (change state) (otherChange other)) :
    Lockstep related stops (modify change) (modify otherChange) fun _ _ => True := by
  intro state other states_related
  exact .ok trivial (kept state other states_related)

theorem lockstep_mapM {action : α → Evaluation γ} {otherAction : β → Evaluation δ}
    {alike : α → β → Prop} {gives : γ → δ → Prop} {inputs : List α} {others : List β}
    (inputs_alike : List.Forall₂ alike inputs others)
    (each : ∀ input other, alike input other →
      Lockstep related stops (action input) (otherAction other) gives) :
    Lockstep related stops (inputs.mapM action) (others.mapM otherAction)
      (List.Forall₂ gives) := by
  induction inputs_alike with
  | nil => exact lockstep_pure .nil
  | cons input_alike _ ih =>
      rw [List.mapM_cons, List.mapM_cons]
      apply (each _ _ input_alike).bind
      intro value other value_match
      apply ih.bind
      intro values others values_match
      exact lockstep_pure (.cons value_match values_match)

theorem lockstep_orNil {evaluate otherEvaluate : Expr → Evaluation Value}
    {alike : Expr → Expr → Prop} {gives : Value → Value → Prop} {tree other : Option Expr}
    (absent : gives .nil .nil) (trees_alike : Option.Rel alike tree other)
    (each : ∀ tree other, alike tree other →
      Lockstep related stops (evaluate tree) (otherEvaluate other) gives) :
    Lockstep related stops (orNil evaluate tree) (orNil otherEvaluate other) gives := by
  cases trees_alike with
  | none => exact lockstep_pure absent
  | some tree_alike => exact each _ _ tree_alike

theorem lockstep_test {evaluate otherEvaluate : Expr → Evaluation Value}
    {alike : Expr → Expr → Prop} {gives : Value → Value → Prop} {condition other : Option Expr}
    (conditions_alike : Option.Rel alike condition other)
    (truthy : ∀ value other, gives value other → value.isTruthy = other.isTruthy)
    (each : ∀ tree other, alike tree other →
      Lockstep related stops (evaluate tree) (otherEvaluate other) gives) :
    Lockstep related stops (test evaluate condition) (test otherEvaluate other) Eq := by
  cases conditions_alike with
  | none => exact lockstep_pure rfl
  | some condition_alike =>
      apply (each _ _ condition_alike).bind
      intro value other values_match
      exact lockstep_pure (truthy value other values_match)

/-- Completions of one kind, with related values if they return any. -/
inductive CompletionsMatch (gives : Value → Value → Prop) : Completion → Completion → Prop where
  | normal : CompletionsMatch gives .normal .normal
  | breaking : CompletionsMatch gives .breaking .breaking
  | continuing : CompletionsMatch gives .continuing .continuing
  | returning {value other : Value} (values_match : gives value other) :
      CompletionsMatch gives (.returning value) (.returning other)

variable {gives : Value → Value → Prop}

theorem lockstep_inOrder {run otherRun : Stmt → Evaluation Completion} {alike : Stmt → Stmt → Prop}
    {statements others : List Stmt} (statements_alike : List.Forall₂ alike statements others)
    (each : ∀ statement other, alike statement other →
      Lockstep related stops (run statement) (otherRun other) (CompletionsMatch gives)) :
    Lockstep related stops (inOrder run statements) (inOrder otherRun others)
      (CompletionsMatch gives) := by
  induction statements_alike with
  | nil => exact lockstep_pure .normal
  | cons statement_alike _ ih =>
      apply (each _ _ statement_alike).bind
      intro completion other completions_match
      cases completions_match with
      | normal => exact ih
      | breaking => exact lockstep_pure .breaking
      | continuing => exact lockstep_pure .continuing
      | returning values_match => exact lockstep_pure (.returning values_match)

theorem lockstep_turn {condition otherCondition : Evaluation Bool}
    {body otherBody : Evaluation Completion} {after otherAfter : Evaluation Unit}
    (conditions : Lockstep related stops condition otherCondition Eq)
    (bodies : Lockstep related stops body otherBody (CompletionsMatch gives))
    (afters : Lockstep related stops after otherAfter fun _ _ => True) :
    Lockstep related stops (turn condition body after) (turn otherCondition otherBody otherAfter)
      (Option.Rel (CompletionsMatch gives)) := by
  apply conditions.bind
  rintro holds _ rfl
  cases holds with
  | false => exact lockstep_pure (.some .normal)
  | true =>
      apply bodies.bind
      intro completion other completions_match
      cases completions_match with
      | normal | continuing => exact afters.bind fun _ _ _ => lockstep_pure .none
      | breaking => exact lockstep_pure (.some .normal)
      | returning values_match => exact lockstep_pure (.some (.returning values_match))

theorem lockstep_repeatTurn {turn otherTurn : Evaluation (Option Completion)}
    (exhausts : stops (.abort .exhausted) (.abort .exhausted))
    (turns : Lockstep related stops turn otherTurn (Option.Rel (CompletionsMatch gives)))
    (fuel : Nat) :
    Lockstep related stops (repeatTurn turn fuel) (repeatTurn otherTurn fuel)
      (CompletionsMatch gives) := by
  induction fuel with
  | zero => exact lockstep_abort exhausts
  | succ fuel ih =>
      apply turns.bind
      intro found other found_match
      cases found_match with
      | none => exact ih
      | some completions_match => exact lockstep_pure completions_match

end Scriptlet.Evaluation
