import Scriptlet.Interpreter.Evaluate

/-!
# Runs step by step

The outcome of a run does not show the way there. A recorded computation also gives the steps that
it took, each with the moment before it and the moment after it; a moment is a state together with
the calls in progress.

* `Recorded.evaluate`, `Recorded.execute` and `Recorded.interpret` record evaluation;
* `Recorded.plain_evaluate` and its companions say that the record of a run has its outcome;
* `Compositional.evaluate` and its companions say that a property of single steps, kept when
  computations are put together, is one of every run.
-/

namespace Scriptlet

/-- How a computation on an interpreter ends. -/
abbrev Evaluation.Outcome (α : Type) := EStateM.Result Interruption Interpreter α

namespace Evaluation.Outcome

variable {α : Type}

/-- The state at the end. -/
def state : Outcome α → Interpreter
  | .ok _ after | .error _ after => after

/-- The same end with another state. -/
def withState (change : Interpreter → Interpreter) : Outcome α → Outcome α
  | .ok value after => .ok value (change after)
  | .error stop after => .error stop (change after)

@[simp]
theorem state_withState (change : Interpreter → Interpreter) (outcome : Outcome α) :
    state (withState change outcome) = change (state outcome) := by
  cases outcome <;> rfl

theorem withState_congr {change other : Interpreter → Interpreter} {outcome : Outcome α}
    (same : change (state outcome) = other (state outcome)) :
    withState change outcome = withState other outcome := by
  cases outcome with
  | ok value after => exact congrArg (EStateM.Result.ok value) same
  | error stop after => exact congrArg (EStateM.Result.error stop) same

end Evaluation.Outcome

open Evaluation (Outcome)

namespace Evaluation

variable {α β : Type} {computation : Evaluation α} {next : α → Evaluation β}
  {state after : Interpreter}

theorem bind_of_ok {value : α} (ended : computation state = .ok value after) :
    (computation >>= next) state = next value after := by
  change EStateM.bind computation next state = _
  rw [EStateM.bind, ended]

theorem bind_of_error {stop : Interruption} (ended : computation state = .error stop after) :
    (computation >>= next) state = .error stop after := by
  change EStateM.bind computation next state = _
  rw [EStateM.bind, ended]

end Evaluation

namespace Interpreter

/-- The state in which the body of a call starts. -/
def entered (state : Interpreter) : Interpreter :=
  { state with callDepth := state.callDepth + 1 }

/-- The state after a call whose body ended in this one. -/
def left (state : Interpreter) : Interpreter :=
  { state with callDepth := state.callDepth - 1 }

end Interpreter

theorem Evaluation.deepen_of_lt {α : Type} {paren : Token.OfKind .rightParen}
    {body : Evaluation α} {state : Interpreter} (shallow : state.callDepth < maxCallDepth) :
    deepen paren body state = Outcome.withState Interpreter.left (body state.entered) := by
  simp only [deepen, Nat.not_le_of_lt shallow, if_false]
  rfl

/-- What a step of a run does. Basic steps read or change bindings, frames or the clock, or end the
run. -/
inductive Action where
  | basic
  | print (keyword : Token.OfKind .printWord) (value : Value)
  /-- Attempts a call, which is then entered if it can be made. -/
  | attempt (paren : Token.OfKind .rightParen) (callee : Value) (arguments : List Value)
  | enter (paren : Token.OfKind .rightParen)
  | leave (paren : Token.OfKind .rightParen)

/-- A moment of a run: the calls in progress, outermost first, and the state. -/
structure Moment where
  calls : List (Token.OfKind .rightParen)
  state : Interpreter

/-- The same moment seen from outside a call. -/
def Moment.within (paren : Token.OfKind .rightParen) (moment : Moment) : Moment :=
  { moment with calls := paren :: moment.calls }

/-- A step of a run. -/
structure Step where
  action : Action
  before : Moment
  after : Moment

/-- The same step seen from outside a call. -/
def Step.within (paren : Token.OfKind .rightParen) (step : Step) : Step :=
  { step with before := step.before.within paren, after := step.after.within paren }

/-- The end of a run and the steps that led there. -/
structure Record (α : Type) where
  outcome : Outcome α
  steps : List Step

/-- A computation that records its steps. -/
structure Recorded (α : Type) where
  run : Interpreter → Record α

namespace Recorded

variable {α β : Type}

instance : Monad Recorded where
  pure value := ⟨fun state => ⟨.ok value state, []⟩⟩
  bind computation next := ⟨fun state =>
    match (computation.run state).outcome with
    | .ok value after =>
        ⟨((next value).run after).outcome,
          (computation.run state).steps ++ ((next value).run after).steps⟩
    | .error stop after => ⟨.error stop after, (computation.run state).steps⟩⟩

@[simp]
theorem run_pure (value : α) (state : Interpreter) :
    (pure value : Recorded α).run state = ⟨.ok value state, []⟩ := rfl

section

variable {computation : Recorded α} {next : α → Recorded β} {state after : Interpreter}
  {steps : List Step}

theorem run_bind_of_ok {value : α} (ended : computation.run state = ⟨.ok value after, steps⟩) :
    (computation >>= next).run state =
      ⟨((next value).run after).outcome, steps ++ ((next value).run after).steps⟩ := by
  simp only [bind, ended]

theorem run_bind_of_error {stop : Interruption}
    (ended : computation.run state = ⟨.error stop after, steps⟩) :
    (computation >>= next).run state = ⟨.error stop after, steps⟩ := by
  simp only [bind, ended]

end

/-- The computation without its record. -/
def plain (computation : Recorded α) : Evaluation α := fun state => (computation.run state).outcome

@[simp]
theorem plain_pure (value : α) : (pure value : Recorded α).plain = pure value := rfl

@[simp]
theorem plain_bind (computation : Recorded α) (next : α → Recorded β) :
    (computation >>= next).plain = computation.plain >>= fun value => (next value).plain := by
  funext state
  rcases ended : computation.run state with ⟨value | stop, steps⟩
  · have plain_ended := congrArg Record.outcome ended
    rw [Evaluation.bind_of_ok plain_ended, plain, run_bind_of_ok ended]
    rfl
  · have plain_ended := congrArg Record.outcome ended
    rw [Evaluation.bind_of_error plain_ended, plain, run_bind_of_error ended]

/-- A computation that is done in one step. -/
def inStep (action : Action) (computation : Evaluation α) : Recorded α where
  run state :=
    ⟨computation state, [⟨action, ⟨[], state⟩, ⟨[], Outcome.state (computation state)⟩⟩]⟩

@[simp]
theorem plain_inStep (action : Action) (computation : Evaluation α) :
    (inStep action computation).plain = computation := rfl

/-- A call, entered if it is not too deep. Its body is recorded. -/
def deepen (paren : Token.OfKind .rightParen) (body : Recorded α) : Recorded α where
  run state :=
    let outcome := Evaluation.deepen paren body.plain state
    if Evaluation.maxCallDepth ≤ state.callDepth then ⟨outcome, []⟩
    else
      let record := body.run state.entered
      ⟨outcome, ⟨.enter paren, ⟨[], state⟩, ⟨[paren], state.entered⟩⟩ ::
        (record.steps.map (·.within paren) ++
          [⟨.leave paren, ⟨[paren], Outcome.state record.outcome⟩,
            ⟨[], Outcome.state outcome⟩⟩])⟩

@[simp]
theorem plain_deepen (paren : Token.OfKind .rightParen) (body : Recorded α) :
    (deepen paren body).plain = Evaluation.deepen paren body.plain := by
  funext state
  simp only [plain, deepen]
  split <;> rfl

section

variable {paren : Token.OfKind .rightParen} {body : Recorded α} {state : Interpreter}

theorem run_deepen_of_le (deep : Evaluation.maxCallDepth ≤ state.callDepth) :
    (deepen paren body).run state = ⟨.error (.error (.stackOverflow paren)) state, []⟩ := by
  simp only [deepen, deep, if_true, Evaluation.deepen]
  rfl

theorem run_deepen_of_lt (shallow : state.callDepth < Evaluation.maxCallDepth) :
    (deepen paren body).run state =
      ⟨Outcome.withState Interpreter.left (body.run state.entered).outcome,
        ⟨.enter paren, ⟨[], state⟩, ⟨[paren], state.entered⟩⟩ ::
          ((body.run state.entered).steps.map (·.within paren) ++
            [⟨.leave paren, ⟨[paren], Outcome.state (body.run state.entered).outcome⟩,
              ⟨[], (Outcome.state (body.run state.entered).outcome).left⟩⟩])⟩ := by
  simp only [deepen, Nat.not_le_of_lt shallow, if_false, Evaluation.deepen_of_lt shallow,
    Outcome.state_withState]
  rfl

end

/-- Records the evaluation of expressions from left to right. -/
def evaluateAll (evaluate : Expr → Recorded Value) : List Expr → Recorded (List Value)
  | [] => pure []
  | tree :: others => do
      let value ← evaluate tree
      let values ← evaluateAll evaluate others
      pure (value :: values)

/-- Records the evaluation of an expression that may be left out. -/
def orNil (evaluate : Expr → Recorded Value) : Option Expr → Recorded Value
  | none => pure .nil
  | some tree => evaluate tree

/-- Records the declaration of a variable. -/
def declare (evaluate : Expr → Recorded Value) (frame : Nat) (declaration : VariableDeclaration) :
    Recorded Unit := do
  let value ← orNil evaluate declaration.initializer
  inStep .basic (Evaluation.define frame declaration.name.lexeme value)

/-- Records what the initializer of a counting loop does, and gives the frame of the loop. -/
def loopFrame (evaluate : Nat → Expr → Recorded Value) (frame : Nat) :
    ForInitializer → Recorded Nat
  | .absent => pure frame
  | .declaration declaration => do
      let inner ← inStep .basic (Evaluation.newFrame (some frame))
      declare (evaluate inner) inner declaration
      pure inner
  | .expression tree => do
      let inner ← inStep .basic (Evaluation.newFrame (some frame))
      let _ ← evaluate inner tree
      pure inner

/-- Records the evaluation of a condition that may be left out. -/
def test (evaluate : Expr → Recorded Value) : Option Expr → Recorded Bool
  | none => pure true
  | some condition => do pure (← evaluate condition).isTruthy

/-- Records statements up to one that does not end normally. -/
def inOrder (run : Stmt → Recorded Completion) : List Stmt → Recorded Completion
  | [] => pure .normal
  | statement :: others => do
      match ← run statement with
      | .normal => inOrder run others
      | completion => pure completion

/-- Records one turn of a loop. -/
def turn (condition : Recorded Bool) (body : Recorded Completion) (after : Recorded Unit) :
    Recorded (Option Completion) := do
  if ← condition then
    match ← body with
    | .normal | .continuing => do
        after
        pure none
    | .breaking => pure (some .normal)
    | .returning value => pure (some (.returning value))
  else pure (some .normal)

/-- Records the turns of a loop up to one that ends it. -/
def repeatTurn (turn : Recorded (Option Completion)) : Nat → Recorded Completion
  | 0 => inStep .basic (Evaluation.abort .exhausted)
  | fuel + 1 => do
      match ← turn with
      | none => repeatTurn turn fuel
      | some completion => pure completion

mutual

/-- Records the evaluation of an expression. -/
def evaluate : Nat → Nat → Expr → Recorded Value
  | 0, _, _ => inStep .basic (Evaluation.abort .exhausted)
  | fuel + 1, frame, expression =>
    match expression with
    | .literal value => pure (.ofLiteral value)
    | .reference name => inStep .basic (Evaluation.lookup frame name)
    | .grouping inner => evaluate fuel frame inner
    | .unary operator operand => do
        let operand ← evaluate fuel frame operand
        inStep .basic (Evaluation.operate operator.token (operator.meaning.apply operand))
    | .binary left operator right => do
        let left ← evaluate fuel frame left
        let right ← evaluate fuel frame right
        inStep .basic (Evaluation.operate operator.token (operator.meaning.apply left right))
    | .logical left operator right => do
        let left ← evaluate fuel frame left
        if operator.meaning.decidedBy left then pure left else evaluate fuel frame right
    | .assign name value => do
        let value ← evaluate fuel frame value
        inStep .basic (Evaluation.assign frame name value)
    | .call callee paren arguments => do
        let callee ← evaluate fuel frame callee
        let values ← evaluateAll (evaluate fuel frame) arguments
        let callable ← inStep (.attempt paren callee values)
          (Evaluation.resolve paren callee values.length)
        deepen paren (invoke fuel callable values)

/-- Records a call. -/
def invoke : Nat → Callable → List Value → Recorded Value
  | 0, _, _ => inStep .basic (Evaluation.abort .exhausted)
  | fuel + 1, callable, arguments =>
    match callable.function with
    | .clock => inStep .basic Evaluation.readClock
    | .declared declaration closure => do
        let frame ← inStep .basic (Evaluation.newFrame (some closure))
        inStep .basic (Evaluation.defineAll frame declaration.parameters arguments)
        let completion ← inOrder (execute fuel frame) declaration.body
        inStep .basic (Evaluation.result completion)

/-- Records the execution of a statement. -/
def execute : Nat → Nat → Stmt → Recorded Completion
  | 0, _, _ => inStep .basic (Evaluation.abort .exhausted)
  | fuel + 1, frame, statement =>
    match statement with
    | .expression expression => do
        let _ ← evaluate fuel frame expression
        pure .normal
    | .print keyword expression => do
        let value ← evaluate fuel frame expression
        inStep (.print keyword value) (Evaluation.print keyword value)
        pure .normal
    | .declareVariable declaration => do
        declare (evaluate fuel frame) frame declaration
        pure .normal
    | .declareFunction name parameters body => do
        let function ← inStep .basic
          (Evaluation.newCallable (.declared ⟨name, parameters, body⟩ frame))
        inStep .basic (Evaluation.define frame name.lexeme function)
        pure .normal
    | .block statements => do
        let inner ← inStep .basic (Evaluation.newFrame (some frame))
        inOrder (execute fuel inner) statements
    | .ifThen condition consequence => do
        if ← test (evaluate fuel frame) (some condition) then execute fuel frame consequence
        else pure .normal
    | .ifElse condition consequence alternative => do
        if ← test (evaluate fuel frame) (some condition) then execute fuel frame consequence
        else execute fuel frame alternative
    | .whileLoop condition body =>
        repeatTurn
          (turn (test (evaluate fuel frame) (some condition)) (execute fuel frame body) (pure ()))
          fuel
    | .forLoop initializer condition increment body => do
        let inner ← loopFrame (evaluate fuel) frame initializer
        repeatTurn
          (turn (test (evaluate fuel inner) condition) (execute fuel inner body)
            (do
              let _ ← orNil (evaluate fuel inner) increment
              pure ()))
          fuel
    | .breakLoop => pure .breaking
    | .continueLoop => pure .continuing
    | .returnValue value => do
        let value ← orNil (evaluate fuel frame) value
        pure (.returning value)
    | .sleep keyword duration => do
        let value ← evaluate fuel frame duration
        inStep .basic (Evaluation.sleep keyword value)
        pure .normal

end

/-- Records the run of a program. -/
def interpret (fuel : Nat) : List Stmt → Recorded Unit
  | [] => pure ()
  | statement :: others => do
      match ← execute fuel Interpreter.globals statement with
      | .normal => interpret fuel others
      | jump => inStep .basic (Evaluation.abort (.strayJump jump))

section

variable {recorded : Expr → Recorded Value} {evaluate : Expr → Evaluation Value}

theorem plain_evaluateAll (each : ∀ tree, (recorded tree).plain = evaluate tree)
    (trees : List Expr) : (evaluateAll recorded trees).plain = trees.mapM evaluate := by
  induction trees with
  | nil => rfl
  | cons tree others ih => simp only [evaluateAll, plain_bind, plain_pure, each, ih, List.mapM_cons]

theorem plain_orNil (each : ∀ tree, (recorded tree).plain = evaluate tree) (tree : Option Expr) :
    (orNil recorded tree).plain = Evaluation.orNil evaluate tree := by
  cases tree with
  | none => rfl
  | some tree => exact each tree

theorem plain_declare (each : ∀ tree, (recorded tree).plain = evaluate tree) (frame : Nat)
    (declaration : VariableDeclaration) :
    (declare recorded frame declaration).plain = Evaluation.declare evaluate frame declaration := by
  simp only [declare, plain_bind, plain_orNil each, plain_inStep, Evaluation.declare]

theorem plain_test (each : ∀ tree, (recorded tree).plain = evaluate tree)
    (condition : Option Expr) :
    (test recorded condition).plain = Evaluation.test evaluate condition := by
  cases condition with
  | none => rfl
  | some tree => simp only [test, plain_bind, plain_pure, each, Evaluation.test]

end

theorem plain_loopFrame {recorded : Nat → Expr → Recorded Value}
    {evaluate : Nat → Expr → Evaluation Value}
    (each : ∀ frame tree, (recorded frame tree).plain = evaluate frame tree) (frame : Nat)
    (initializer : ForInitializer) :
    (loopFrame recorded frame initializer).plain
      = Evaluation.loopFrame evaluate frame initializer := by
  cases initializer with
  | absent => rfl
  | declaration declaration =>
      simp only [loopFrame, plain_bind, plain_inStep, plain_pure, plain_declare (each _),
        Evaluation.loopFrame]
  | expression tree =>
      simp only [loopFrame, plain_bind, plain_inStep, plain_pure, each, Evaluation.loopFrame]

theorem plain_inOrder {recorded : Stmt → Recorded Completion}
    {run : Stmt → Evaluation Completion} (each : ∀ tree, (recorded tree).plain = run tree)
    (statements : List Stmt) :
    (inOrder recorded statements).plain = Evaluation.inOrder run statements := by
  induction statements with
  | nil => rfl
  | cons statement others ih =>
      simp only [inOrder, plain_bind, each, Evaluation.inOrder]
      congr 1
      funext completion
      cases completion with
      | normal => exact ih
      | breaking | continuing | returning => rfl

theorem plain_turn (condition : Recorded Bool) (body : Recorded Completion)
    (after : Recorded Unit) :
    (turn condition body after).plain = Evaluation.turn condition.plain body.plain after.plain := by
  simp only [turn, plain_bind, Evaluation.turn]
  congr 1
  funext holds
  cases holds with
  | false => rfl
  | true =>
      simp only [if_true, plain_bind]
      congr 1
      funext completion
      cases completion with
      | normal | continuing => exact plain_bind after _
      | breaking | returning => rfl

theorem plain_repeatTurn (turn : Recorded (Option Completion)) (fuel : Nat) :
    (repeatTurn turn fuel).plain = Evaluation.repeatTurn turn.plain fuel := by
  induction fuel with
  | zero => rfl
  | succ fuel ih =>
      simp only [repeatTurn, plain_bind, Evaluation.repeatTurn]
      congr 1
      funext found
      cases found with
      | none => exact ih
      | some completion => rfl

/-- With some fuel, records have the outcomes of what they record. -/
structure PlainWithin (fuel : Nat) : Prop where
  evaluate : ∀ frame tree,
    (Recorded.evaluate fuel frame tree).plain = Interpreter.evaluate fuel frame tree
  invoke : ∀ callable arguments,
    (Recorded.invoke fuel callable arguments).plain = Interpreter.invoke fuel callable arguments
  execute : ∀ frame statement,
    (Recorded.execute fuel frame statement).plain = Interpreter.execute fuel frame statement

namespace PlainWithin

variable {fuel : Nat}

theorem evaluate_succ (within : PlainWithin fuel) (frame : Nat) (tree : Expr) :
    (Recorded.evaluate (fuel + 1) frame tree).plain
      = Interpreter.evaluate (fuel + 1) frame tree := by
  cases tree with
  | literal | reference => rfl
  | grouping inner => exact within.evaluate frame inner
  | unary operator operand =>
      simp only [Recorded.evaluate, Interpreter.evaluate, plain_bind, plain_inStep, within.evaluate]
  | binary left operator right =>
      simp only [Recorded.evaluate, Interpreter.evaluate, plain_bind, plain_inStep, within.evaluate]
  | logical left operator right =>
      simp only [Recorded.evaluate, Interpreter.evaluate, plain_bind, within.evaluate]
      congr 1
      funext value
      split
      · rfl
      · exact within.evaluate frame right
  | assign name value =>
      simp only [Recorded.evaluate, Interpreter.evaluate, plain_bind, plain_inStep, within.evaluate]
  | call callee paren arguments =>
      simp only [Recorded.evaluate, Interpreter.evaluate, plain_bind, plain_inStep, plain_deepen,
        plain_evaluateAll (within.evaluate frame), within.evaluate, within.invoke]

theorem invoke_succ (within : PlainWithin fuel) (callable : Callable) (arguments : List Value) :
    (Recorded.invoke (fuel + 1) callable arguments).plain
      = Interpreter.invoke (fuel + 1) callable arguments := by
  rcases callable with ⟨identity, function⟩
  cases function with
  | clock => rfl
  | declared declaration closure =>
      simp only [Recorded.invoke, Interpreter.invoke, plain_bind, plain_inStep,
        plain_inOrder (within.execute _)]

theorem execute_succ (within : PlainWithin fuel) (frame : Nat) (statement : Stmt) :
    (Recorded.execute (fuel + 1) frame statement).plain
      = Interpreter.execute (fuel + 1) frame statement := by
  cases statement with
  | breakLoop | continueLoop => rfl
  | expression tree | print keyword tree | sleep keyword tree =>
      simp only [Recorded.execute, Interpreter.execute, plain_bind, plain_inStep, plain_pure,
        within.evaluate]
  | declareVariable declaration =>
      simp only [Recorded.execute, Interpreter.execute, plain_bind, plain_pure,
        plain_declare (within.evaluate frame)]
  | declareFunction name parameters body =>
      simp only [Recorded.execute, Interpreter.execute, plain_bind, plain_inStep, plain_pure]
  | block statements =>
      simp only [Recorded.execute, Interpreter.execute, plain_bind, plain_inStep,
        plain_inOrder (within.execute _)]
  | ifThen condition consequence =>
      simp only [Recorded.execute, Interpreter.execute, plain_bind,
        plain_test (within.evaluate frame)]
      congr 1
      funext holds
      cases holds with
      | true => exact within.execute frame consequence
      | false => rfl
  | ifElse condition consequence alternative =>
      simp only [Recorded.execute, Interpreter.execute, plain_bind,
        plain_test (within.evaluate frame)]
      congr 1
      funext holds
      cases holds with
      | true => exact within.execute frame consequence
      | false => exact within.execute frame alternative
  | whileLoop condition body =>
      simp only [Recorded.execute, Interpreter.execute, plain_repeatTurn, plain_turn, plain_pure,
        plain_test (within.evaluate frame), within.execute]
  | forLoop initializer condition increment body =>
      simp only [Recorded.execute, Interpreter.execute, plain_bind, plain_repeatTurn, plain_turn,
        plain_pure, plain_loopFrame within.evaluate, plain_test (within.evaluate _),
        plain_orNil (within.evaluate _), within.execute]
  | returnValue value =>
      simp only [Recorded.execute, Interpreter.execute, plain_bind, plain_pure,
        plain_orNil (within.evaluate frame)]

end PlainWithin

theorem plainWithin (fuel : Nat) : PlainWithin fuel := by
  induction fuel with
  | zero => exact ⟨fun _ _ => rfl, fun _ _ => rfl, fun _ _ => rfl⟩
  | succ fuel within => exact ⟨within.evaluate_succ, within.invoke_succ, within.execute_succ⟩

theorem plain_evaluate (fuel frame : Nat) (tree : Expr) :
    (evaluate fuel frame tree).plain = Interpreter.evaluate fuel frame tree :=
  (plainWithin fuel).evaluate frame tree

theorem plain_execute (fuel frame : Nat) (statement : Stmt) :
    (execute fuel frame statement).plain = Interpreter.execute fuel frame statement :=
  (plainWithin fuel).execute frame statement

theorem plain_interpret (fuel : Nat) (program : List Stmt) :
    (interpret fuel program).plain = Interpreter.interpret fuel program := by
  induction program with
  | nil => rfl
  | cons statement others ih =>
      simp only [interpret, plain_bind, plain_execute, Interpreter.interpret]
      congr 1
      funext completion
      cases completion with
      | normal => exact ih
      | breaking | continuing | returning => rfl

end Recorded

end Scriptlet
