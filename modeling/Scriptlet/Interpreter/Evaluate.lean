import Scriptlet.Interpreter.Basic

/-!
# Evaluation

Expressions give values, statements give completions. Programs need not finish, so evaluation takes
fuel: a bound on the nesting of what is evaluated and on the turns of each loop. Without enough of
it the run is interrupted as exhausted, which no finished run is.

Branches and loop bodies run in the frame that they stand in. Blocks, calls and loops with a first
clause make a frame of their own.
-/

namespace Scriptlet.Interpreter

open Evaluation

mutual

/-- Evaluates an expression in a frame. -/
def evaluate : Nat → Nat → Expr → Evaluation Value
  | 0, _, _ => abort .exhausted
  | fuel + 1, frame, expression =>
    match expression with
    | .literal value => pure (.ofLiteral value)
    | .reference name => lookup frame name
    | .grouping inner => evaluate fuel frame inner
    | .unary operator operand => do
        let operand ← evaluate fuel frame operand
        operate operator.token (operator.meaning.apply operand)
    | .binary left operator right => do
        let left ← evaluate fuel frame left
        let right ← evaluate fuel frame right
        operate operator.token (operator.meaning.apply left right)
    | .logical left operator right => do
        let left ← evaluate fuel frame left
        if operator.meaning.decidedBy left then pure left else evaluate fuel frame right
    | .assign name value => do
        let value ← evaluate fuel frame value
        assign frame name value
    | .call callee paren arguments => do
        let callee ← evaluate fuel frame callee
        let values ← arguments.mapM (evaluate fuel frame)
        let callable ← resolve paren callee values.length
        deepen paren (invoke fuel callable values)

/-- Calls a callable with as many arguments as it takes. What its body returns is the result, or nil
if it returns nothing. -/
def invoke : Nat → Callable → List Value → Evaluation Value
  | 0, _, _ => abort .exhausted
  | fuel + 1, callable, arguments =>
    match callable.function with
    | .clock => readClock
    | .declared declaration closure => do
        let frame ← newFrame (some closure)
        defineAll frame declaration.parameters arguments
        let completion ← inOrder (execute fuel frame) declaration.body
        result completion

/-- Executes a statement in a frame, and tells how it ends. -/
def execute : Nat → Nat → Stmt → Evaluation Completion
  | 0, _, _ => abort .exhausted
  | fuel + 1, frame, statement =>
    match statement with
    | .expression expression => do
        let _ ← evaluate fuel frame expression
        pure .normal
    | .print keyword expression => do
        let value ← evaluate fuel frame expression
        print keyword value
        pure .normal
    | .declareVariable declaration => do
        declare (evaluate fuel frame) frame declaration
        pure .normal
    | .declareFunction name parameters body => do
        let function ← newCallable (.declared ⟨name, parameters, body⟩ frame)
        define frame name.lexeme function
        pure .normal
    | .block statements => do
        let inner ← newFrame (some frame)
        inOrder (execute fuel inner) statements
    | .ifThen condition consequence => do
        if ← test (evaluate fuel frame) (some condition) then execute fuel frame consequence
        else pure .normal
    | .ifElse condition consequence alternative => do
        if ← test (evaluate fuel frame) (some condition) then execute fuel frame consequence
        else execute fuel frame alternative
    | .whileLoop condition body =>
        repeatTurn
          (turn (test (evaluate fuel frame) (some condition)) (execute fuel frame body) (pure ()))
          fuel
    | .forLoop initializer condition increment body => do
        let inner ← loopFrame (evaluate fuel) frame initializer
        repeatTurn
          (turn (test (evaluate fuel inner) condition) (execute fuel inner body)
            (do
              let _ ← orNil (evaluate fuel inner) increment
              pure ()))
          fuel
    | .breakLoop => pure .breaking
    | .continueLoop => pure .continuing
    | .returnValue value => do
        let value ← orNil (evaluate fuel frame) value
        pure (.returning value)
    | .sleep keyword duration => do
        let value ← evaluate fuel frame duration
        sleep keyword value
        pure .normal

end

/-- Runs a program on the global frame. -/
def interpret (fuel : Nat) : List Stmt → Evaluation Unit
  | [] => pure ()
  | statement :: others => do
      match ← execute fuel globals statement with
      | .normal => interpret fuel others
      | jump => abort (.strayJump jump)

end Scriptlet.Interpreter
