import Scriptlet.Clock
import Scriptlet.Interpreter.RuntimeError
import Scriptlet.Output
import Scriptlet.Scope

/-!
# The interpreter and its steps

The state that a program runs on, the ways in which a run stops early, and the single steps that
evaluation is made of. Steps keep what they did to the state also when they fail.
-/

namespace Scriptlet

/-- The state that programs run on. -/
structure Interpreter where
  scopes : Scopes
  /-- The identity of the next callable object. -/
  nextIdentity : Nat
  /-- The number of calls in progress. -/
  callDepth : Nat
  output : Output
  clock : Clock

/-- How a statement finishes. -/
inductive Completion where
  | normal
  | breaking
  | continuing
  | returning (value : Value)

/-- Why a run has no answer: a jump left the function body or the program that it stands in, which
well-formed programs do not have; or there was no fuel left. -/
inductive Abort where
  | strayJump (completion : Completion)
  | exhausted

/-- Why a run stops before its end. -/
inductive Interruption where
  | error (error : RuntimeError)
  | abort (reason : Abort)

/-- A computation on an interpreter. -/
abbrev Evaluation := EStateM Interruption Interpreter

namespace Interpreter

/-- The frame of the global names. -/
def globals : Nat := 0

/-- A new interpreter. Its only global name is `clock`. -/
def start (output : Output) (clock : Clock) : Interpreter where
  scopes := (Scopes.empty.push none).define globals "clock" (.callable ⟨0, .clock⟩)
  nextIdentity := 1
  callDepth := 0
  output
  clock

end Interpreter

namespace Evaluation

variable {α : Type}

/-- Stops with a runtime error. -/
def fail (error : RuntimeError) : Evaluation α :=
  throw (.error error)

/-- Stops without an answer. -/
def abort (reason : Abort) : Evaluation α :=
  throw (.abort reason)

/-- The value of a name as seen from a frame. -/
def lookup (frame : Nat) (name : Name) : Evaluation Value := fun state =>
  match state.scopes.find frame name.lexeme with
  | some value => .ok value state
  | none => fail (.undefinedVariable name) state

/-- Changes the value of a name that is bound as seen from a frame. -/
def assign (frame : Nat) (name : Name) (value : Value) : Evaluation Value := fun state =>
  match state.scopes.owner frame name.lexeme with
  | some owner =>
      .ok value { state with scopes := state.scopes.define owner name.lexeme value }
  | none => fail (.undefinedVariable name) state

/-- Binds a name in a frame. -/
def define (frame : Nat) (name : String) (value : Value) : Evaluation Unit :=
  modify fun state => { state with scopes := state.scopes.define frame name value }

/-- Binds names to values in a frame, in order. -/
def defineAll (frame : Nat) (names : List Name) (values : List Value) : Evaluation Unit :=
  (names.zip values).forM fun (name, value) => define frame name.lexeme value

/-- Makes a frame below another one, or below none. -/
def newFrame (enclosing : Option Nat) : Evaluation Nat := fun state =>
  .ok state.scopes.nextId { state with scopes := state.scopes.push enclosing }

/-- Makes a callable with an identity of its own. -/
def newCallable (function : Function) : Evaluation Value := fun state =>
  .ok (.callable ⟨state.nextIdentity, function⟩)
    { state with nextIdentity := state.nextIdentity + 1 }

/-- Gives the result of an operator, or fails at the token of the operator. -/
def operate (token : Token) : Except OperatorError Value → Evaluation Value
  | .ok value => pure value
  | .error error => fail (.operator token error)

/-- Prints a value on a line of its own. -/
def print (keyword : Token.OfKind .printWord) (value : Value) : Evaluation Unit := fun state =>
  let line := value.text ++ "\n"
  let fits := state.output.fits line
  let state := { state with output := state.output.write line }
  if fits then .ok () state else fail (.output keyword state.output.refusal) state

/-- Reads the clock. -/
def readClock : Evaluation Value := fun state =>
  .ok (.number state.clock.now) { state with clock := state.clock.read }

/-- Sleeps for as many milliseconds as a value says, which has to be a number. -/
def sleep (keyword : Token.OfKind .sleepWord) : Value → Evaluation Unit
  | .number milliseconds =>
      modify fun state => { state with clock := state.clock.sleep milliseconds }
  | _ => fail (.sleepDurationNotNumber keyword)

/-- The callable to run for a callee and a number of arguments. -/
def resolve (paren : Token.OfKind .rightParen) (callee : Value) (count : Nat) :
    Evaluation Callable :=
  match callee with
  | .callable object =>
      if object.arity = count then pure object
      else fail (.arityMismatch paren object.arity count)
  | _ => fail (.notCallable paren)

/-- The most calls that can be in progress at once. -/
def maxCallDepth : Nat := 1024

/-- Runs the body of a call, which is in progress until the body finishes in any way. -/
def deepen (paren : Token.OfKind .rightParen) (body : Evaluation α) : Evaluation α := fun state =>
  if maxCallDepth ≤ state.callDepth then fail (.stackOverflow paren) state
  else
    match body { state with callDepth := state.callDepth + 1 } with
    | .ok value after => .ok value { after with callDepth := after.callDepth - 1 }
    | .error stop after => .error stop { after with callDepth := after.callDepth - 1 }

/-- Evaluates an expression that may be left out, for `nil`. -/
def orNil (evaluate : Expr → Evaluation Value) : Option Expr → Evaluation Value
  | none => pure .nil
  | some expression => evaluate expression

/-- Declares a variable in a frame. -/
def declare (evaluate : Expr → Evaluation Value) (frame : Nat)
    (declaration : VariableDeclaration) : Evaluation Unit := do
  let value ← orNil evaluate declaration.initializer
  define frame declaration.name.lexeme value

/-- Runs the first clause of a counting loop in a frame of its own, which the whole loop uses.
Without a first clause the loop uses the frame that it stands in. -/
def loopFrame (evaluate : Nat → Expr → Evaluation Value) (frame : Nat) :
    ForInitializer → Evaluation Nat
  | .absent => pure frame
  | .declaration declaration => do
      let inner ← newFrame (some frame)
      declare (evaluate inner) inner declaration
      pure inner
  | .expression expression => do
      let inner ← newFrame (some frame)
      let _ ← evaluate inner expression
      pure inner

/-- Tests a condition; one that is left out holds. -/
def test (evaluate : Expr → Evaluation Value) : Option Expr → Evaluation Bool
  | none => pure true
  | some condition => do pure (← evaluate condition).isTruthy

/-- Runs statements in order until one does not complete normally. -/
def inOrder (run : Stmt → Evaluation Completion) : List Stmt → Evaluation Completion
  | [] => pure .normal
  | statement :: others => do
      match ← run statement with
      | .normal => inOrder run others
      | completion => pure completion

/-- What a call gives when its body completes: jumps out of loops have no meaning there. -/
def result : Completion → Evaluation Value
  | .normal => pure .nil
  | .returning value => pure value
  | jump => abort (.strayJump jump)

/-- One turn of a loop: the condition, the body, and what is done after the body. The loop goes on
after a turn that gives nothing. -/
def turn (condition : Evaluation Bool) (body : Evaluation Completion) (after : Evaluation Unit) :
    Evaluation (Option Completion) := do
  if ← condition then
    match ← body with
    | .normal | .continuing => do
        after
        pure none
    | .breaking => pure (some .normal)
    | .returning value => pure (some (.returning value))
  else pure (some .normal)

/-- Repeats the turns of a loop until one ends it. -/
def repeatTurn (turn : Evaluation (Option Completion)) : Nat → Evaluation Completion
  | 0 => abort .exhausted
  | fuel + 1 => do
      match ← turn with
      | none => repeatTurn turn fuel
      | some completion => pure completion

end Evaluation

end Scriptlet
