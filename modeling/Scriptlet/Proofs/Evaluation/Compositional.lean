import Scriptlet.Proofs.Evaluation.Recorded

/-!
# Properties of every run

Evaluation is made of few kinds of steps. Most are quiet: they neither know nor change the call
depth and the output, and no call is too deep for them. The others print, or attempt, enter and
leave calls. A property of recorded
computations that holds of these steps and is kept by `>>=` is therefore one of every run, and the
induction over evaluation is made once for all such properties.
-/

namespace Scriptlet

open Evaluation (Outcome)

namespace Interpreter

/-- The state with another output and another call depth. -/
def withSurface (state : Interpreter) (output : Output) (depth : Nat) : Interpreter :=
  { state with output, callDepth := depth }

end Interpreter

namespace Evaluation

variable {α β : Type}

/-- A computation does the same whatever the output and the call depth are, and keeps both. -/
structure Quiet (computation : Evaluation α) : Prop where
  indifferent : ∀ state output depth, computation (state.withSurface output depth) =
    Outcome.withState (·.withSurface output depth) (computation state)
  no_overflow : ∀ state paren after,
    computation state ≠ .error (.error (.stackOverflow paren)) after

namespace Quiet

variable {computation : Evaluation α}

theorem withState_eq (quiet : Quiet computation) (state : Interpreter) :
    Outcome.withState (·.withSurface state.output state.callDepth) (computation state)
      = computation state :=
  (quiet.indifferent state state.output state.callDepth).symm

theorem output_eq (quiet : Quiet computation) (state : Interpreter) :
    (Outcome.state (computation state)).output = state.output := by
  rw [← quiet.withState_eq state, Outcome.state_withState]
  rfl

theorem callDepth_eq (quiet : Quiet computation) (state : Interpreter) :
    (Outcome.state (computation state)).callDepth = state.callDepth := by
  rw [← quiet.withState_eq state, Outcome.state_withState]
  rfl

theorem bind (quiet : Quiet computation) {next : α → Evaluation β}
    (next_quiet : ∀ value, Quiet (next value)) : Quiet (computation >>= next) where
  indifferent state output depth := by
    change EStateM.bind computation next _ = Outcome.withState _ (EStateM.bind computation next _)
    rw [EStateM.bind, EStateM.bind, quiet.indifferent]
    cases computation state with
    | ok value after => exact (next_quiet value).indifferent after output depth
    | error stop after => rfl
  no_overflow state paren after := by
    change EStateM.bind computation next _ ≠ _
    rw [EStateM.bind]
    cases ended : computation state with
    | ok value middle => exact (next_quiet value).no_overflow middle paren after
    | error stop middle =>
        rintro ⟨⟩
        exact quiet.no_overflow state paren after ended

end Quiet

theorem quiet_pure (value : α) : Quiet (pure value) where
  indifferent _ _ _ := rfl
  no_overflow _ _ _ := by rintro ⟨⟩

theorem quiet_fail {error : RuntimeError} (no_overflow : ∀ paren, error ≠ .stackOverflow paren) :
    Quiet (fail error : Evaluation α) where
  indifferent _ _ _ := rfl
  no_overflow _ paren _ := by
    rintro ⟨⟩
    exact no_overflow paren rfl

theorem quiet_abort (reason : Abort) : Quiet (abort reason : Evaluation α) where
  indifferent _ _ _ := rfl
  no_overflow _ _ _ := by rintro ⟨⟩

theorem quiet_lookup (frame : Nat) (name : Name) : Quiet (lookup frame name) where
  indifferent _ _ _ := by
    simp only [lookup, Interpreter.withSurface]
    split <;> rfl
  no_overflow _ _ _ := by
    simp only [lookup]
    split <;> rintro ⟨⟩

theorem quiet_assign (frame : Nat) (name : Name) (value : Value) :
    Quiet (assign frame name value) where
  indifferent _ _ _ := by
    simp only [assign, Interpreter.withSurface]
    split <;> rfl
  no_overflow _ _ _ := by
    simp only [assign]
    split <;> rintro ⟨⟩

theorem quiet_define (frame : Nat) (name : String) (value : Value) :
    Quiet (define frame name value) where
  indifferent _ _ _ := rfl
  no_overflow _ _ _ := by rintro ⟨⟩

theorem quiet_forM {action : α → Evaluation Unit} (inputs : List α)
    (each : ∀ input, Quiet (action input)) : Quiet (inputs.forM action) := by
  induction inputs with
  | nil => exact quiet_pure ()
  | cons input inputs ih => exact (each input).bind fun _ => ih

theorem quiet_defineAll (frame : Nat) (names : List Name) (values : List Value) :
    Quiet (defineAll frame names values) :=
  quiet_forM _ fun (name, value) => quiet_define frame name.lexeme value

theorem quiet_newFrame (enclosing : Option Nat) : Quiet (newFrame enclosing) where
  indifferent _ _ _ := rfl
  no_overflow _ _ _ := by rintro ⟨⟩

theorem quiet_newCallable (function : Function) : Quiet (newCallable function) where
  indifferent _ _ _ := rfl
  no_overflow _ _ _ := by rintro ⟨⟩

theorem quiet_operate (token : Token) (result : Except OperatorError Value) :
    Quiet (operate token result) := by
  cases result with
  | ok value => exact quiet_pure value
  | error error => exact quiet_fail (by simp)

theorem quiet_readClock : Quiet readClock where
  indifferent _ _ _ := rfl
  no_overflow _ _ _ := by rintro ⟨⟩

theorem quiet_sleep (keyword : Token.OfKind .sleepWord) (value : Value) :
    Quiet (sleep keyword value) := by
  cases value with
  | number => exact ⟨fun _ _ _ => rfl, by rintro _ _ _ ⟨⟩⟩
  | nil | boolean | string | callable => exact quiet_fail (by simp)

theorem quiet_resolve (paren : Token.OfKind .rightParen) (callee : Value) (count : Nat) :
    Quiet (resolve paren callee count) := by
  cases callee with
  | callable object =>
      simp only [resolve]
      split
      · exact quiet_pure object
      · exact quiet_fail (by simp)
  | nil | boolean | number | string => exact quiet_fail (by simp)

theorem callDepth_print (keyword : Token.OfKind .printWord) (value : Value) (state : Interpreter) :
    (Outcome.state (print keyword value state)).callDepth = state.callDepth := by
  simp only [print]
  split <;> rfl

theorem quiet_result (completion : Completion) : Quiet (result completion) := by
  cases completion with
  | normal => exact quiet_pure _
  | returning value => exact quiet_pure value
  | breaking | continuing => exact quiet_abort _

end Evaluation

open Evaluation

/-- A property of recorded computations holds of the steps of evaluation, and of what is put
together from computations that have it. -/
structure Compositional (property : ∀ {α : Type}, Recorded α → Prop) : Prop where
  pure : ∀ {α : Type} (value : α), property (pure value : Recorded α)
  bind : ∀ {α β : Type} {computation : Recorded α} {next : α → Recorded β},
    property computation → (∀ value, property (next value)) → property (computation >>= next)
  basic : ∀ {α : Type} {computation : Evaluation α}, Quiet computation →
    property (Recorded.inStep .basic computation)
  print : ∀ keyword value,
    property (Recorded.inStep (.print keyword value) (Evaluation.print keyword value))
  call : ∀ {α : Type} (paren callee arguments) {body : Callable → Recorded α},
    (∀ callable, property (body callable)) →
    property (Recorded.inStep (.attempt paren callee arguments)
      (resolve paren callee arguments.length) >>= fun callable =>
        Recorded.deepen paren (body callable))

namespace Compositional

variable {property : ∀ {α : Type}, Recorded α → Prop}

section

variable {evaluate : Expr → Recorded Value}

theorem evaluateAll (compositional : Compositional property)
    (each : ∀ tree, property (evaluate tree)) (trees : List Expr) :
    property (Recorded.evaluateAll evaluate trees) := by
  induction trees with
  | nil => exact compositional.pure []
  | cons tree others ih =>
      apply compositional.bind (each tree)
      intro value
      exact compositional.bind ih fun values => compositional.pure (value :: values)

theorem orNil (compositional : Compositional property) (each : ∀ tree, property (evaluate tree))
    (tree : Option Expr) : property (Recorded.orNil evaluate tree) := by
  cases tree with
  | none => exact compositional.pure Value.nil
  | some tree => exact each tree

theorem declare (compositional : Compositional property) (each : ∀ tree, property (evaluate tree))
    (frame : Nat) (declaration : VariableDeclaration) :
    property (Recorded.declare evaluate frame declaration) := by
  apply compositional.bind (compositional.orNil each declaration.initializer)
  intro value
  exact compositional.basic (quiet_define frame declaration.name.lexeme value)

theorem test (compositional : Compositional property) (each : ∀ tree, property (evaluate tree))
    (condition : Option Expr) : property (Recorded.test evaluate condition) := by
  cases condition with
  | none => exact compositional.pure true
  | some tree => exact compositional.bind (each tree) fun value => compositional.pure value.isTruthy

end

theorem loopFrame (compositional : Compositional property)
    {evaluate : Nat → Expr → Recorded Value} (each : ∀ frame tree, property (evaluate frame tree))
    (frame : Nat) (initializer : ForInitializer) :
    property (Recorded.loopFrame evaluate frame initializer) := by
  cases initializer with
  | absent => exact compositional.pure frame
  | declaration declaration =>
      apply compositional.bind (compositional.basic (quiet_newFrame (some frame)))
      intro inner
      exact compositional.bind (compositional.declare (each inner) inner declaration)
        fun _ => compositional.pure inner
  | expression tree =>
      apply compositional.bind (compositional.basic (quiet_newFrame (some frame)))
      intro inner
      exact compositional.bind (each inner tree) fun _ => compositional.pure inner

theorem inOrder (compositional : Compositional property) {run : Stmt → Recorded Completion}
    (each : ∀ statement, property (run statement)) (statements : List Stmt) :
    property (Recorded.inOrder run statements) := by
  induction statements with
  | nil => exact compositional.pure Completion.normal
  | cons statement others ih =>
      apply compositional.bind (each statement)
      intro completion
      cases completion with
      | normal => exact ih
      | breaking | continuing | returning => exact compositional.pure _

theorem turn (compositional : Compositional property) {condition : Recorded Bool}
    {body : Recorded Completion} {after : Recorded Unit} (condition_has : property condition)
    (body_has : property body) (after_has : property after) :
    property (Recorded.turn condition body after) := by
  apply compositional.bind condition_has
  intro holds
  cases holds with
  | false => exact compositional.pure _
  | true =>
      apply compositional.bind body_has
      intro completion
      cases completion with
      | normal | continuing =>
          exact compositional.bind after_has fun _ => compositional.pure none
      | breaking | returning => exact compositional.pure _

theorem repeatTurn (compositional : Compositional property)
    {turn : Recorded (Option Completion)} (turn_has : property turn) (fuel : Nat) :
    property (Recorded.repeatTurn turn fuel) := by
  induction fuel with
  | zero => exact compositional.basic (quiet_abort .exhausted)
  | succ fuel ih =>
      apply compositional.bind turn_has
      intro found
      cases found with
      | none => exact ih
      | some completion => exact compositional.pure completion

end Compositional

/-- With some fuel, all evaluation has a property. -/
structure HasWithin (property : ∀ {α : Type}, Recorded α → Prop) (fuel : Nat) : Prop where
  evaluate : ∀ frame tree, property (Recorded.evaluate fuel frame tree)
  invoke : ∀ callable arguments, property (Recorded.invoke fuel callable arguments)
  execute : ∀ frame statement, property (Recorded.execute fuel frame statement)

namespace HasWithin

variable {property : ∀ {α : Type}, Recorded α → Prop} {fuel : Nat}

theorem evaluate_succ (within : HasWithin property fuel) (compositional : Compositional property)
    (frame : Nat) (tree : Expr) : property (Recorded.evaluate (fuel + 1) frame tree) := by
  cases tree with
  | literal value => exact compositional.pure (Value.ofLiteral value)
  | reference name => exact compositional.basic (quiet_lookup frame name)
  | grouping inner => exact within.evaluate frame inner
  | unary operator operand =>
      apply compositional.bind (within.evaluate frame operand)
      intro value
      exact compositional.basic (quiet_operate operator.token _)
  | binary left operator right =>
      apply compositional.bind (within.evaluate frame left)
      intro leftValue
      apply compositional.bind (within.evaluate frame right)
      intro rightValue
      exact compositional.basic (quiet_operate operator.token _)
  | logical left operator right =>
      apply compositional.bind (within.evaluate frame left)
      intro leftValue
      split
      · exact compositional.pure leftValue
      · exact within.evaluate frame right
  | assign name value =>
      apply compositional.bind (within.evaluate frame value)
      intro assigned
      exact compositional.basic (quiet_assign frame name assigned)
  | call callee paren arguments =>
      apply compositional.bind (within.evaluate frame callee)
      intro calleeValue
      apply compositional.bind (compositional.evaluateAll (within.evaluate frame) arguments)
      intro values
      exact compositional.call paren calleeValue values fun callable =>
        within.invoke callable values

theorem invoke_succ (within : HasWithin property fuel) (compositional : Compositional property)
    (callable : Callable) (arguments : List Value) :
    property (Recorded.invoke (fuel + 1) callable arguments) := by
  rcases callable with ⟨identity, function⟩
  cases function with
  | clock => exact compositional.basic quiet_readClock
  | declared declaration closure =>
      apply compositional.bind (compositional.basic (quiet_newFrame (some closure)))
      intro frame
      apply compositional.bind
        (compositional.basic (quiet_defineAll frame declaration.parameters arguments))
      intro _
      apply compositional.bind (compositional.inOrder (within.execute frame) declaration.body)
      intro completion
      exact compositional.basic (quiet_result completion)

theorem execute_succ (within : HasWithin property fuel) (compositional : Compositional property)
    (frame : Nat) (statement : Stmt) :
    property (Recorded.execute (fuel + 1) frame statement) := by
  have normal : property (pure .normal : Recorded Completion) := compositional.pure _
  cases statement with
  | expression tree => exact compositional.bind (within.evaluate frame tree) fun _ => normal
  | print keyword tree =>
      apply compositional.bind (within.evaluate frame tree)
      intro value
      exact compositional.bind (compositional.print keyword value) fun _ => normal
  | sleep keyword duration =>
      apply compositional.bind (within.evaluate frame duration)
      intro value
      exact compositional.bind (compositional.basic (quiet_sleep keyword value)) fun _ => normal
  | declareVariable declaration =>
      exact compositional.bind (compositional.declare (within.evaluate frame) frame declaration)
        fun _ => normal
  | declareFunction name parameters body =>
      apply compositional.bind (compositional.basic (quiet_newCallable _))
      intro function
      exact compositional.bind (compositional.basic (quiet_define frame name.lexeme function))
        fun _ => normal
  | block statements =>
      apply compositional.bind (compositional.basic (quiet_newFrame (some frame)))
      intro inner
      exact compositional.inOrder (within.execute inner) statements
  | ifThen condition consequence =>
      apply compositional.bind (compositional.test (within.evaluate frame) (some condition))
      intro holds
      cases holds with
      | true => exact within.execute frame consequence
      | false => exact normal
  | ifElse condition consequence alternative =>
      apply compositional.bind (compositional.test (within.evaluate frame) (some condition))
      intro holds
      cases holds with
      | true => exact within.execute frame consequence
      | false => exact within.execute frame alternative
  | whileLoop condition body =>
      exact compositional.repeatTurn
        (compositional.turn (compositional.test (within.evaluate frame) (some condition))
          (within.execute frame body) (compositional.pure ())) fuel
  | forLoop initializer condition increment body =>
      apply compositional.bind (compositional.loopFrame within.evaluate frame initializer)
      intro inner
      have afterwards := compositional.bind (compositional.orNil (within.evaluate inner) increment)
        fun _ => compositional.pure ()
      exact compositional.repeatTurn
        (compositional.turn (compositional.test (within.evaluate inner) condition)
          (within.execute inner body) afterwards) fuel
  | breakLoop | continueLoop => exact compositional.pure _
  | returnValue value =>
      apply compositional.bind (compositional.orNil (within.evaluate frame) value)
      intro returned
      exact compositional.pure (Completion.returning returned)

end HasWithin

namespace Compositional

variable {property : ∀ {α : Type}, Recorded α → Prop}

theorem hasWithin (compositional : Compositional property) (fuel : Nat) :
    HasWithin property fuel := by
  induction fuel with
  | zero =>
      have exhausted {α : Type} := compositional.basic (quiet_abort (α := α) .exhausted)
      exact ⟨fun _ _ => exhausted, fun _ _ => exhausted, fun _ _ => exhausted⟩
  | succ fuel within =>
      exact ⟨within.evaluate_succ compositional, within.invoke_succ compositional,
        within.execute_succ compositional⟩

theorem evaluate (compositional : Compositional property) (fuel frame : Nat) (tree : Expr) :
    property (Recorded.evaluate fuel frame tree) :=
  (compositional.hasWithin fuel).evaluate frame tree

theorem execute (compositional : Compositional property) (fuel frame : Nat) (statement : Stmt) :
    property (Recorded.execute fuel frame statement) :=
  (compositional.hasWithin fuel).execute frame statement

theorem interpret (compositional : Compositional property) (fuel : Nat) (program : List Stmt) :
    property (Recorded.interpret fuel program) := by
  induction program with
  | nil => exact compositional.pure ()
  | cons statement others ih =>
      apply compositional.bind (compositional.execute fuel Interpreter.globals statement)
      intro completion
      cases completion with
      | normal => exact ih
      | breaking | continuing | returning => exact compositional.basic (quiet_abort _)

end Compositional

end Scriptlet
