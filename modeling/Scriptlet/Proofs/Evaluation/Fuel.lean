import Scriptlet.Proofs.Evaluation.Compositional

/-!
# More fuel

Fuel bounds a run and does nothing else: a run that is not exhausted ends in the same way with more
fuel, and one that is exhausted has written the start of what is written with more fuel. So a run
has one outcome, if it has one with any fuel, and one text in any case.
-/

namespace Scriptlet

namespace Evaluation

variable {α β : Type}

/-- A computation only adds to what is written. -/
def Appends (computation : Evaluation α) : Prop :=
  ∀ state, ∃ text,
    (Outcome.state (computation state)).output.written = state.output.written ++ text

theorem Quiet.appends {computation : Evaluation α} (quiet : Quiet computation) :
    Appends computation := by
  intro state
  exact ⟨.empty, by rw [quiet.output_eq, ByteArray.append_empty]⟩

theorem appends_print (keyword : Token.OfKind .printWord) (value : Value) :
    Appends (print keyword value) := by
  intro state
  have written_eq : (Outcome.state (print keyword value state)).output
      = state.output.write (value.text ++ "\n") := by
    simp only [print]
    split <;> rfl
  rw [written_eq, Output.write]
  split <;> exact ⟨_, rfl⟩

theorem Appends.bind {computation : Evaluation α} {next : α → Evaluation β}
    (first : Appends computation) (second : ∀ value, Appends (next value)) :
    Appends (computation >>= next) := by
  intro state
  obtain ⟨text, written_eq⟩ := first state
  cases ended : computation state with
  | ok value after =>
      rw [ended] at written_eq
      obtain ⟨later, later_eq⟩ := second value after
      rw [bind_of_ok ended, later_eq]
      change after.output.written = _ at written_eq
      exact ⟨text ++ later, by rw [written_eq, ByteArray.append_assoc]⟩
  | error stop after =>
      rw [ended] at written_eq
      rw [bind_of_error ended]
      exact ⟨text, written_eq⟩

theorem Appends.deepen {body : Evaluation α} (appends : Appends body)
    (paren : Token.OfKind .rightParen) : Appends (deepen paren body) := by
  intro state
  rcases Nat.lt_or_ge state.callDepth maxCallDepth with shallow | deep
  · rw [deepen_of_lt shallow, Outcome.state_withState]
    exact appends state.entered
  · simp only [Evaluation.deepen, deep, if_true]
    exact ⟨.empty, ByteArray.append_empty.symm⟩

theorem appends_repeatTurn {turn : Evaluation (Option Completion)} (appends : Appends turn)
    (fuel : Nat) : Appends (repeatTurn turn fuel) := by
  induction fuel with
  | zero => exact (quiet_abort .exhausted).appends
  | succ fuel ih =>
      apply appends.bind
      intro found
      cases found with
      | none => exact ih
      | some completion => exact (quiet_pure completion).appends

theorem compositional_appends :
    Compositional fun computation => Appends computation.plain where
  pure value := (quiet_pure value).appends
  bind first second := by
    rw [Recorded.plain_bind]
    exact first.bind second
  basic quiet := quiet.appends
  print keyword value := appends_print keyword value
  call paren callee arguments _ bodies_append := by
    rw [Recorded.plain_bind]
    apply (quiet_resolve paren callee arguments.length).appends.bind
    intro callable
    rw [Recorded.plain_deepen]
    exact (bodies_append callable).deepen paren

theorem appends_evaluate (fuel frame : Nat) (tree : Expr) :
    Appends (Interpreter.evaluate fuel frame tree) := by
  rw [← Recorded.plain_evaluate]
  exact compositional_appends.evaluate fuel frame tree

theorem appends_invoke (fuel : Nat) (callable : Callable) (arguments : List Value) :
    Appends (Interpreter.invoke fuel callable arguments) := by
  rw [← (Recorded.plainWithin fuel).invoke]
  exact (compositional_appends.hasWithin fuel).invoke callable arguments

theorem appends_execute (fuel frame : Nat) (statement : Stmt) :
    Appends (Interpreter.execute fuel frame statement) := by
  rw [← Recorded.plain_execute]
  exact compositional_appends.execute fuel frame statement

/-- A computation comes to the same as a shorter one. Where the shorter one is exhausted it goes on
from there as far as can be seen: what it writes starts with what was written until then. -/
structure Outlasts (shorter longer : Evaluation α) : Prop where
  appends : Appends longer
  same_or_exhausted : ∀ state, longer state = shorter state ∨
    ∃ after text, shorter state = .error (.abort .exhausted) after ∧
      (Outcome.state (longer state)).output.written = after.output.written ++ text

theorem outlasts_self {computation : Evaluation α} (appends : Appends computation) :
    Outlasts computation computation :=
  ⟨appends, fun _ => .inl rfl⟩

theorem Quiet.outlasts {computation : Evaluation α} (quiet : Quiet computation) :
    Outlasts computation computation :=
  outlasts_self quiet.appends

theorem outlasts_pure (value : α) : Outlasts (pure value) (pure value) :=
  (quiet_pure value).outlasts

theorem outlasts_exhausted {longer : Evaluation α} (appends : Appends longer) :
    Outlasts (abort .exhausted) longer := by
  refine ⟨appends, fun state => ?_⟩
  obtain ⟨text, written_eq⟩ := appends state
  exact .inr ⟨state, text, rfl, written_eq⟩

theorem Outlasts.bind {shorter longer : Evaluation α} {next longerNext : α → Evaluation β}
    (first : Outlasts shorter longer)
    (second : ∀ value, Outlasts (next value) (longerNext value)) :
    Outlasts (shorter >>= next) (longer >>= longerNext) := by
  refine ⟨first.appends.bind fun value => (second value).appends, ?_⟩
  intro state
  rcases first.same_or_exhausted state with same | ⟨after, text, exhausted, written_eq⟩
  · cases ended : shorter state with
    | ok value after =>
        rw [bind_of_ok ended, bind_of_ok (same.trans ended)]
        exact (second value).same_or_exhausted after
    | error stop after =>
        rw [bind_of_error ended, bind_of_error (same.trans ended)]
        exact .inl rfl
  · right
    -- Where the shorter first part is exhausted, the longer one may go on to the second part.
    cases ended : longer state with
    | ok value middle =>
        rw [ended] at written_eq
        obtain ⟨later, later_eq⟩ := (second value).appends middle
        refine ⟨after, text ++ later, bind_of_error exhausted, ?_⟩
        change middle.output.written = _ at written_eq
        rw [bind_of_ok ended, later_eq, written_eq, ByteArray.append_assoc]
    | error stop middle =>
        rw [ended] at written_eq
        refine ⟨after, text, bind_of_error exhausted, ?_⟩
        rw [bind_of_error ended]
        exact written_eq

theorem outlasts_mapM {action longer : α → Evaluation β}
    (each : ∀ input, Outlasts (action input) (longer input)) (inputs : List α) :
    Outlasts (inputs.mapM action) (inputs.mapM longer) := by
  induction inputs with
  | nil => exact outlasts_pure []
  | cons input inputs ih =>
      rw [List.mapM_cons, List.mapM_cons]
      apply (each input).bind
      intro value
      exact ih.bind fun values => outlasts_pure (value :: values)

theorem Outlasts.trans {shorter middle longer : Evaluation α} (first : Outlasts shorter middle)
    (second : Outlasts middle longer) : Outlasts shorter longer := by
  refine ⟨second.appends, fun state => ?_⟩
  rcases first.same_or_exhausted state with same | ⟨after, text, exhausted, written_eq⟩
  · rw [← same]
    exact second.same_or_exhausted state
  · right
    rcases second.same_or_exhausted state with same | ⟨later, rest, exhausted', later_eq⟩
    · exact ⟨after, text, exhausted, by rw [same, written_eq]⟩
    · rw [exhausted'] at written_eq
      change later.output.written = _ at written_eq
      exact ⟨after, text ++ rest, exhausted,
        by rw [later_eq, written_eq, ByteArray.append_assoc]⟩

theorem Outlasts.deepen {shorter longer : Evaluation α} (body : Outlasts shorter longer)
    (paren : Token.OfKind .rightParen) :
    Outlasts (deepen paren shorter) (deepen paren longer) := by
  refine ⟨body.appends.deepen paren, ?_⟩
  intro state
  rcases Nat.lt_or_ge state.callDepth maxCallDepth with shallow | deep
  · rw [deepen_of_lt shallow, deepen_of_lt shallow]
    rcases body.same_or_exhausted state.entered with same | ⟨after, text, exhausted, written_eq⟩
    · exact .inl (congrArg _ same)
    · refine .inr ⟨after.left, text, congrArg _ exhausted, ?_⟩
      rw [Outcome.state_withState]
      exact written_eq
  · left
    simp only [Evaluation.deepen, deep, if_true]

/-- With more fuel nothing that was written is taken back. -/
theorem Outlasts.exists_written {shorter longer : Evaluation α} (outlasts : Outlasts shorter longer)
    (state : Interpreter) :
    ∃ text, (Outcome.state (longer state)).output.written
      = (Outcome.state (shorter state)).output.written ++ text := by
  rcases outlasts.same_or_exhausted state with same | ⟨after, text, exhausted, written_eq⟩
  · exact ⟨.empty, by rw [same, ByteArray.append_empty]⟩
  · rw [exhausted]
    exact ⟨text, written_eq⟩

theorem Outlasts.eq_of_finished {shorter longer : Evaluation α}
    (outlasts : Outlasts shorter longer) {state : Interpreter}
    (finished : ∀ after, shorter state ≠ .error (.abort .exhausted) after) :
    longer state = shorter state := by
  rcases outlasts.same_or_exhausted state with same | ⟨after, _, exhausted, _⟩
  · exact same
  · exact absurd exhausted (finished after)

section

variable {evaluate longer : Expr → Evaluation Value}

theorem outlasts_orNil (each : ∀ tree, Outlasts (evaluate tree) (longer tree))
    (tree : Option Expr) : Outlasts (orNil evaluate tree) (orNil longer tree) := by
  cases tree with
  | none => exact outlasts_pure Value.nil
  | some tree => exact each tree

theorem outlasts_declare (each : ∀ tree, Outlasts (evaluate tree) (longer tree)) (frame : Nat)
    (declaration : VariableDeclaration) :
    Outlasts (declare evaluate frame declaration) (declare longer frame declaration) :=
  (outlasts_orNil each declaration.initializer).bind fun _ => (quiet_define ..).outlasts

theorem outlasts_test (each : ∀ tree, Outlasts (evaluate tree) (longer tree))
    (condition : Option Expr) : Outlasts (test evaluate condition) (test longer condition) := by
  cases condition with
  | none => exact outlasts_pure true
  | some tree => exact (each tree).bind fun _ => outlasts_pure _

end

theorem outlasts_loopFrame {evaluate longer : Nat → Expr → Evaluation Value}
    (each : ∀ frame tree, Outlasts (evaluate frame tree) (longer frame tree)) (frame : Nat)
    (initializer : ForInitializer) :
    Outlasts (loopFrame evaluate frame initializer) (loopFrame longer frame initializer) := by
  cases initializer with
  | absent => exact outlasts_pure frame
  | declaration declaration =>
      apply (quiet_newFrame (some frame)).outlasts.bind
      intro inner
      exact (outlasts_declare (each inner) inner declaration).bind fun _ => outlasts_pure inner
  | expression tree =>
      apply (quiet_newFrame (some frame)).outlasts.bind
      intro inner
      exact (each inner tree).bind fun _ => outlasts_pure inner

theorem outlasts_inOrder {run longer : Stmt → Evaluation Completion}
    (each : ∀ statement, Outlasts (run statement) (longer statement)) (statements : List Stmt) :
    Outlasts (inOrder run statements) (inOrder longer statements) := by
  induction statements with
  | nil => exact outlasts_pure _
  | cons statement others ih =>
      apply (each statement).bind
      intro completion
      cases completion with
      | normal => exact ih
      | breaking | continuing | returning => exact outlasts_pure _

theorem outlasts_turn {condition longerCondition : Evaluation Bool}
    {body longerBody : Evaluation Completion} {after longerAfter : Evaluation Unit}
    (conditions : Outlasts condition longerCondition) (bodies : Outlasts body longerBody)
    (afters : Outlasts after longerAfter) :
    Outlasts (turn condition body after) (turn longerCondition longerBody longerAfter) := by
  apply conditions.bind
  intro holds
  cases holds with
  | false => exact outlasts_pure _
  | true =>
      apply bodies.bind
      intro completion
      cases completion with
      | normal | continuing => exact afters.bind fun _ => outlasts_pure _
      | breaking | returning => exact outlasts_pure _

theorem outlasts_repeatTurn {turn longer : Evaluation (Option Completion)}
    (turns : Outlasts turn longer) {fuel more : Nat} (enough : fuel ≤ more) :
    Outlasts (repeatTurn turn fuel) (repeatTurn longer more) := by
  induction fuel generalizing more with
  | zero => exact outlasts_exhausted (appends_repeatTurn turns.appends more)
  | succ fuel ih =>
      obtain ⟨rest, rfl⟩ : ∃ rest, more = rest + 1 := ⟨more - 1, by omega⟩
      apply turns.bind
      intro found
      cases found with
      | none => exact ih (by omega)
      | some completion => exact outlasts_pure completion

/-- Evaluation with more fuel outlasts evaluation with some. -/
structure OutlastsWithin (fuel more : Nat) : Prop where
  evaluate : ∀ frame tree,
    Outlasts (Interpreter.evaluate fuel frame tree) (Interpreter.evaluate more frame tree)
  invoke : ∀ callable arguments,
    Outlasts (Interpreter.invoke fuel callable arguments)
      (Interpreter.invoke more callable arguments)
  execute : ∀ frame statement,
    Outlasts (Interpreter.execute fuel frame statement) (Interpreter.execute more frame statement)

namespace OutlastsWithin

variable {fuel more : Nat}

theorem evaluate_succ (within : OutlastsWithin fuel more) (frame : Nat) (tree : Expr) :
    Outlasts (Interpreter.evaluate (fuel + 1) frame tree)
      (Interpreter.evaluate (more + 1) frame tree) := by
  cases tree with
  | literal value => exact outlasts_pure (Value.ofLiteral value)
  | reference name => exact (quiet_lookup frame name).outlasts
  | grouping inner => exact within.evaluate frame inner
  | unary operator operand =>
      exact (within.evaluate frame operand).bind fun _ => (quiet_operate ..).outlasts
  | binary left operator right =>
      apply (within.evaluate frame left).bind
      intro _
      exact (within.evaluate frame right).bind fun _ => (quiet_operate ..).outlasts
  | logical left operator right =>
      apply (within.evaluate frame left).bind
      intro leftValue
      split
      · exact outlasts_pure leftValue
      · exact within.evaluate frame right
  | assign name value =>
      exact (within.evaluate frame value).bind fun _ => (quiet_assign ..).outlasts
  | call callee paren arguments =>
      apply (within.evaluate frame callee).bind
      intro calleeValue
      apply (outlasts_mapM (within.evaluate frame) arguments).bind
      intro values
      apply (quiet_resolve paren calleeValue values.length).outlasts.bind
      intro callable
      exact (within.invoke callable values).deepen paren

theorem invoke_succ (within : OutlastsWithin fuel more) (callable : Callable)
    (arguments : List Value) :
    Outlasts (Interpreter.invoke (fuel + 1) callable arguments)
      (Interpreter.invoke (more + 1) callable arguments) := by
  rcases callable with ⟨identity, function⟩
  cases function with
  | clock => exact quiet_readClock.outlasts
  | declared declaration closure =>
      apply (quiet_newFrame (some closure)).outlasts.bind
      intro frame
      apply (quiet_defineAll frame declaration.parameters arguments).outlasts.bind
      intro _
      apply (outlasts_inOrder (within.execute frame) declaration.body).bind
      exact fun completion => (quiet_result completion).outlasts

theorem execute_succ (within : OutlastsWithin fuel more) (enough : fuel ≤ more) (frame : Nat)
    (statement : Stmt) :
    Outlasts (Interpreter.execute (fuel + 1) frame statement)
      (Interpreter.execute (more + 1) frame statement) := by
  cases statement with
  | expression tree => exact (within.evaluate frame tree).bind fun _ => outlasts_pure _
  | print keyword tree =>
      apply (within.evaluate frame tree).bind
      intro value
      exact (outlasts_self (appends_print keyword value)).bind fun _ => outlasts_pure _
  | sleep keyword duration =>
      apply (within.evaluate frame duration).bind
      intro value
      exact (quiet_sleep keyword value).outlasts.bind fun _ => outlasts_pure _
  | declareVariable declaration =>
      exact (outlasts_declare (within.evaluate frame) frame declaration).bind
        fun _ => outlasts_pure _
  | declareFunction name parameters body =>
      apply (quiet_newCallable (.declared ⟨name, parameters, body⟩ frame)).outlasts.bind
      intro function
      exact (quiet_define frame name.lexeme function).outlasts.bind fun _ => outlasts_pure _
  | breakLoop | continueLoop => exact outlasts_pure _
  | block statements =>
      apply (quiet_newFrame (some frame)).outlasts.bind
      intro inner
      exact outlasts_inOrder (within.execute inner) statements
  | ifThen condition consequence =>
      apply (outlasts_test (within.evaluate frame) (some condition)).bind
      intro holds
      cases holds with
      | true => exact within.execute frame consequence
      | false => exact outlasts_pure _
  | ifElse condition consequence alternative =>
      apply (outlasts_test (within.evaluate frame) (some condition)).bind
      intro holds
      cases holds with
      | true => exact within.execute frame consequence
      | false => exact within.execute frame alternative
  | whileLoop condition body =>
      exact outlasts_repeatTurn
        (outlasts_turn (outlasts_test (within.evaluate frame) (some condition))
          (within.execute frame body) (outlasts_pure ())) enough
  | forLoop initializer condition increment body =>
      apply (outlasts_loopFrame within.evaluate frame initializer).bind
      intro inner
      exact outlasts_repeatTurn (outlasts_turn (outlasts_test (within.evaluate inner) condition)
        (within.execute inner body)
        ((outlasts_orNil (within.evaluate inner) increment).bind fun _ => outlasts_pure ())) enough
  | returnValue value =>
      exact (outlasts_orNil (within.evaluate frame) value).bind fun _ => outlasts_pure _

end OutlastsWithin

theorem outlastsWithin {fuel more : Nat} (enough : fuel ≤ more) : OutlastsWithin fuel more := by
  induction fuel generalizing more with
  | zero =>
      exact ⟨fun _ _ => outlasts_exhausted (appends_evaluate _ _ _),
        fun _ _ => outlasts_exhausted (appends_invoke _ _ _),
        fun _ _ => outlasts_exhausted (appends_execute _ _ _)⟩
  | succ fuel ih =>
      obtain ⟨rest, rfl⟩ : ∃ rest, more = rest + 1 := ⟨more - 1, by omega⟩
      have within : OutlastsWithin fuel rest := ih (by omega)
      exact ⟨within.evaluate_succ, within.invoke_succ, within.execute_succ (by omega)⟩

/-- A run has an outcome: the one that it has with enough fuel. -/
def Ends (runs : Nat → Evaluation α) (state : Interpreter) (outcome : Outcome α) : Prop :=
  ∃ fuel, runs fuel state = outcome ∧ ∀ after, outcome ≠ .error (.abort .exhausted) after

/-- A run comes to print a text, whether it ends or not. -/
def Prints (runs : Nat → Evaluation α) (state : Interpreter) (text : ByteArray) : Prop :=
  ∃ fuel rest, (Outcome.state (runs fuel state)).output.written = text ++ rest

/-- A run with any fuel is outlasted by another one with enough fuel. -/
def OutlastsInTime (runs others : Nat → Evaluation α) : Prop :=
  ∀ fuel, ∃ more, Outlasts (runs fuel) (others more)

namespace OutlastsInTime

variable {runs others : Nat → Evaluation α} {state : Interpreter}

theorem ends (outlasts : OutlastsInTime runs others) {outcome : Outcome α}
    (ends : Ends runs state outcome) : Ends others state outcome := by
  obtain ⟨fuel, rfl, finished⟩ := ends
  obtain ⟨more, outlasts⟩ := outlasts fuel
  exact ⟨more, outlasts.eq_of_finished finished, finished⟩

theorem prints (outlasts : OutlastsInTime runs others) {text : ByteArray}
    (prints : Prints runs state text) : Prints others state text := by
  obtain ⟨fuel, rest, written_eq⟩ := prints
  obtain ⟨more, outlasts⟩ := outlasts fuel
  obtain ⟨added, added_eq⟩ := outlasts.exists_written state
  exact ⟨more, rest ++ added, by rw [added_eq, written_eq, ByteArray.append_assoc]⟩

end OutlastsInTime

/-- A run that more fuel only prolongs has one outcome at most. -/
theorem Ends.unique {runs : Nat → Evaluation α}
    (prolonged : ∀ {fuel more}, fuel ≤ more → Outlasts (runs fuel) (runs more))
    {state : Interpreter} {outcome other : Outcome α} (ends : Ends runs state outcome)
    (other_ends : Ends runs state other) : outcome = other := by
  obtain ⟨fuel, rfl, finished⟩ := ends
  obtain ⟨more, rfl, other_finished⟩ := other_ends
  rcases Nat.le_total fuel more with enough | enough
  · exact ((prolonged enough).eq_of_finished finished).symm
  · exact (prolonged enough).eq_of_finished other_finished

end Evaluation

namespace Interpreter

open Evaluation

theorem outlasts_interpret {fuel more : Nat} (enough : fuel ≤ more) (program : List Stmt) :
    Outlasts (interpret fuel program) (interpret more program) := by
  induction program with
  | nil => exact outlasts_pure ()
  | cons statement others ih =>
      apply ((outlastsWithin enough).execute globals statement).bind
      intro completion
      cases completion with
      | normal => exact ih
      | breaking | continuing | returning => exact (quiet_abort _).outlasts

/-- More fuel does not change a run that is not exhausted. -/
theorem interpret_of_le {fuel more : Nat} (enough : fuel ≤ more) {program : List Stmt}
    {state : Interpreter}
    (finished : ∀ after, interpret fuel program state ≠ .error (.abort .exhausted) after) :
    interpret more program state = interpret fuel program state :=
  (outlasts_interpret enough program).eq_of_finished finished

end Interpreter

end Scriptlet
