import Scriptlet.Interpreter.Evaluate

/-!
# What a computation keeps and gives

`Ensures` is the judgement in which safety of evaluation is stated: from a state in which an
invariant holds, a computation ends in such a state again, gives only values of one kind and stops
early only in ways of another kind. It says nothing about whether the computation ends with a value.

There is one rule for each way in which evaluation puts computations together.
-/

namespace Scriptlet.Evaluation

variable {α β : Type} {invariant : Interpreter → Prop} {stops : Interruption → Prop}

/-- An invariant is kept, also when the computation stops early. -/
def Ensures (invariant : Interpreter → Prop) (stops : Interruption → Prop)
    (computation : Evaluation α) (gives : α → Prop) : Prop :=
  ∀ before, invariant before →
    match computation before with
    | .ok value after => invariant after ∧ gives value
    | .error stop after => invariant after ∧ stops stop

namespace Ensures

variable {computation : Evaluation α} {gives : α → Prop}

theorem of_ok (ensures : Ensures invariant stops computation gives) {before after : Interpreter}
    {value : α} (holds : invariant before) (run : computation before = .ok value after) :
    invariant after ∧ gives value := by
  have outcome := ensures before holds
  rwa [run] at outcome

theorem of_error (ensures : Ensures invariant stops computation gives)
    {before after : Interpreter} {stop : Interruption} (holds : invariant before)
    (run : computation before = .error stop after) : invariant after ∧ stops stop := by
  have outcome := ensures before holds
  rwa [run] at outcome

theorem bind {next : α → Evaluation β} {then_ : β → Prop}
    (first : Ensures invariant stops computation gives)
    (second : ∀ value, gives value → Ensures invariant stops (next value) then_) :
    Ensures invariant stops (computation >>= next) then_ := by
  intro before holds
  change match EStateM.bind computation next before with
    | .ok value after => invariant after ∧ then_ value
    | .error stop after => invariant after ∧ stops stop
  cases run : computation before with
  | ok value middle =>
      have outcome := first.of_ok holds run
      simpa only [EStateM.bind, run] using second value outcome.2 middle outcome.1
  | error stop after =>
      simpa only [EStateM.bind, run] using first.of_error holds run

end Ensures

theorem ensures_pure {value : α} {gives : α → Prop} (holds : gives value) :
    Ensures invariant stops (pure value) gives := by
  intro before invariant_holds
  exact ⟨invariant_holds, holds⟩

theorem ensures_fail {gives : α → Prop} {error : RuntimeError} (allowed : stops (.error error)) :
    Ensures invariant stops (fail error) gives := by
  intro before holds
  exact ⟨holds, allowed⟩

theorem ensures_abort {gives : α → Prop} {reason : Abort} (allowed : stops (.abort reason)) :
    Ensures invariant stops (abort reason) gives := by
  intro before holds
  exact ⟨holds, allowed⟩

theorem ensures_modify {change : Interpreter → Interpreter}
    (kept : ∀ state, invariant state → invariant (change state)) :
    Ensures invariant stops (modify change) fun _ => True := by
  intro before holds
  exact ⟨kept before holds, trivial⟩

theorem ensures_mapM {action : α → Evaluation β} {gives : β → Prop} (inputs : List α)
    (each : ∀ input ∈ inputs, Ensures invariant stops (action input) gives) :
    Ensures invariant stops (inputs.mapM action) fun values => ∀ value ∈ values, gives value := by
  induction inputs with
  | nil => exact ensures_pure (by simp)
  | cons input inputs ih =>
      rw [List.forall_mem_cons] at each
      rw [List.mapM_cons]
      apply each.1.bind
      intro value value_holds
      apply (ih each.2).bind
      intro values values_hold
      apply ensures_pure
      simpa using ⟨value_holds, values_hold⟩

theorem ensures_forM {action : α → Evaluation Unit} (inputs : List α)
    (each : ∀ input ∈ inputs, Ensures invariant stops (action input) fun _ => True) :
    Ensures invariant stops (inputs.forM action) fun _ => True := by
  induction inputs with
  | nil => exact ensures_pure trivial
  | cons input inputs ih =>
      rw [List.forall_mem_cons] at each
      exact each.1.bind fun _ _ => ih each.2

theorem ensures_orNil {evaluate : Expr → Evaluation Value} {gives : Value → Prop}
    (absent : gives .nil) (tree : Option Expr)
    (present : ∀ inner ∈ tree, Ensures invariant stops (evaluate inner) gives) :
    Ensures invariant stops (orNil evaluate tree) gives := by
  cases tree with
  | none => exact ensures_pure absent
  | some inner => exact present inner rfl

theorem ensures_test {evaluate : Expr → Evaluation Value} {gives : Value → Prop}
    (condition : Option Expr)
    (present : ∀ inner ∈ condition, Ensures invariant stops (evaluate inner) gives) :
    Ensures invariant stops (test evaluate condition) fun _ => True := by
  cases condition with
  | none => exact ensures_pure trivial
  | some inner => exact (present inner rfl).bind fun _ _ => ensures_pure trivial

theorem ensures_branch {evaluate : Expr → Evaluation Value} {gives : Value → Prop}
    {condition : Expr} {consequence alternative : Evaluation α} {ends : α → Prop}
    (condition_ensures : Ensures invariant stops (evaluate condition) gives)
    (consequence_ensures : Ensures invariant stops consequence ends)
    (alternative_ensures : Ensures invariant stops alternative ends) :
    Ensures invariant stops
      (test evaluate (some condition) >>= fun holds =>
        if holds then consequence else alternative) ends := by
  have tested : Ensures invariant stops (test evaluate (some condition)) fun _ => True := by
    apply ensures_test
    rintro _ ⟨⟩
    exact condition_ensures
  apply tested.bind
  intro holds _
  cases holds with
  | true => exact consequence_ensures
  | false => exact alternative_ensures

theorem ensures_declare {evaluate : Expr → Evaluation Value} {gives : Value → Prop} {frame : Nat}
    {declaration : VariableDeclaration} (absent : gives .nil)
    (present : ∀ tree ∈ declaration.initializer, Ensures invariant stops (evaluate tree) gives)
    (defines : ∀ value, gives value →
      Ensures invariant stops (define frame declaration.name.lexeme value) fun _ => True) :
    Ensures invariant stops (declare evaluate frame declaration) fun _ => True :=
  (ensures_orNil absent declaration.initializer present).bind defines

/-- A first clause runs in the frame that is made for it, and the loop in the same one. -/
theorem ensures_loopFrame {evaluate : Nat → Expr → Evaluation Value} {made : Nat → Prop}
    {gives : Value → Prop} {frame : Nat} {initializer : ForInitializer}
    (makes : Ensures invariant stops (newFrame (some frame)) made)
    (declares : ∀ declaration, initializer = .declaration declaration → ∀ inner, made inner →
      Ensures invariant stops (declare (evaluate inner) inner declaration) fun _ => True)
    (evaluates : ∀ tree, initializer = .expression tree → ∀ inner, made inner →
      Ensures invariant stops (evaluate inner tree) gives) :
    Ensures invariant stops (loopFrame evaluate frame initializer) fun inner =>
      inner = frame ∨ made inner := by
  cases initializer with
  | absent => exact ensures_pure (.inl rfl)
  | declaration declaration =>
      apply makes.bind
      intro inner inner_made
      exact (declares declaration rfl inner inner_made).bind
        fun _ _ => ensures_pure (.inr inner_made)
  | expression tree =>
      apply makes.bind
      intro inner inner_made
      exact (evaluates tree rfl inner inner_made).bind fun _ _ => ensures_pure (.inr inner_made)

theorem ensures_inOrder {run : Stmt → Evaluation Completion} {gives : Completion → Prop}
    (finished : gives .normal) (statements : List Stmt)
    (each : ∀ statement ∈ statements, Ensures invariant stops (run statement) gives) :
    Ensures invariant stops (inOrder run statements) gives := by
  induction statements with
  | nil => exact ensures_pure finished
  | cons statement statements ih =>
      rw [List.forall_mem_cons] at each
      apply each.1.bind
      intro completion fits
      cases completion with
      | normal => exact ih each.2
      | breaking | continuing | returning => exact ensures_pure fits

/-- A turn ends a loop normally, or by a return of the body. -/
theorem ensures_turn {condition : Evaluation Bool} {body : Evaluation Completion}
    {after : Evaluation Unit} {gives ends : Completion → Prop} (finished : ends .normal)
    (returned : ∀ value, gives (.returning value) → ends (.returning value))
    (condition_ensures : Ensures invariant stops condition fun _ => True)
    (body_ensures : Ensures invariant stops body gives)
    (after_ensures : Ensures invariant stops after fun _ => True) :
    Ensures invariant stops (turn condition body after) fun found =>
      ∀ completion ∈ found, ends completion := by
  apply condition_ensures.bind
  intro holds _
  cases holds with
  | false => exact ensures_pure (by simpa using finished)
  | true =>
      apply body_ensures.bind
      intro completion given
      cases completion with
      | normal | continuing => exact after_ensures.bind fun _ _ => ensures_pure (by simp)
      | breaking => exact ensures_pure (by simpa using finished)
      | returning value => exact ensures_pure (by simpa using returned value given)

theorem ensures_repeatTurn {turn : Evaluation (Option Completion)} {gives : Completion → Prop}
    (exhausts : stops (.abort .exhausted))
    (each : Ensures invariant stops turn fun found => ∀ completion ∈ found, gives completion)
    (fuel : Nat) : Ensures invariant stops (repeatTurn turn fuel) gives := by
  induction fuel with
  | zero => exact ensures_abort exhausts
  | succ fuel ih =>
      apply each.bind
      intro found fits
      cases found with
      | none => exact ih
      | some completion => exact ensures_pure (fits completion rfl)

/-- A loop tests its condition, runs its body and evaluates its last clause, in one frame. -/
theorem ensures_loop {evaluate : Expr → Evaluation Value} {values : Value → Prop}
    {condition : Option Expr} {body : Evaluation Completion} {after : Evaluation Unit}
    {gives ends : Completion → Prop} (exhausts : stops (.abort .exhausted))
    (finished : ends .normal)
    (returned : ∀ value, gives (.returning value) → ends (.returning value))
    (condition_ensures : ∀ tree ∈ condition, Ensures invariant stops (evaluate tree) values)
    (body_ensures : Ensures invariant stops body gives)
    (after_ensures : Ensures invariant stops after fun _ => True) (fuel : Nat) :
    Ensures invariant stops (repeatTurn (turn (test evaluate condition) body after) fuel) ends :=
  ensures_repeatTurn exhausts
    (ensures_turn finished returned (ensures_test condition condition_ensures) body_ensures
      after_ensures) fuel

/-- What the last clause of a loop gives is left aside. -/
theorem ensures_lastClause {evaluate : Expr → Evaluation Value} {values : Value → Prop}
    {increment : Option Expr} (absent : values .nil)
    (present : ∀ tree ∈ increment, Ensures invariant stops (evaluate tree) values) :
    Ensures invariant stops (do let _ ← orNil evaluate increment; pure ()) fun _ => True :=
  (ensures_orNil absent increment present).bind fun _ _ => ensures_pure trivial

/-- A program stops with a stray jump only if a statement of it can complete with the jump. -/
theorem ensures_interpret {gives : Completion → Prop} {fuel : Nat} {program : List Stmt}
    (each : ∀ statement ∈ program,
      Ensures invariant stops (Interpreter.execute fuel Interpreter.globals statement) gives)
    (stray : ∀ completion, completion ≠ .normal → gives completion →
      stops (.abort (.strayJump completion))) :
    Ensures invariant stops (Interpreter.interpret fuel program) fun _ => True := by
  induction program with
  | nil => exact ensures_pure trivial
  | cons statement others ih =>
      rw [List.forall_mem_cons] at each
      apply each.1.bind
      intro completion given
      cases completion with
      | normal => exact ih each.2
      | breaking | continuing | returning => exact ensures_abort (stray _ nofun given)

end Scriptlet.Evaluation
