import Scriptlet.Proofs.Evaluation.Admission
import Scriptlet.Proofs.Grammar.Placement

/-!
# No jump leaves what it stands in

A well placed statement completes only in ways that its surroundings have a use for, provided that
every function in the state has a well placed body. Completions thus never reach the end of a
program or of a function body as jumps, which is where a run could have no answer.
-/

namespace Scriptlet

open Grammar

/-- Functions whose bodies are well placed. -/
def FunctionDeclaration.WellPlaced (declaration : FunctionDeclaration) : Prop :=
  ∀ statement ∈ declaration.body, statement.WellPlaced ⟨false, true⟩

/-- Completions that surroundings have a use for. -/
def Completion.Fits (surroundings : Surroundings) : Completion → Prop
  | .normal => True
  | .breaking | .continuing => surroundings.inLoop = true
  | .returning value =>
      surroundings.inFunction = true ∧ value.Admitted FunctionDeclaration.WellPlaced

/-- Ways to stop early other than by a stray jump. -/
def Interruption.IsOrderly : Interruption → Prop
  | .abort (.strayJump _) => False
  | _ => True

namespace Evaluation

/-- A computation keeps the functions of the state well placed and meets no stray jump. -/
abbrev Orderly {α : Type} (computation : Evaluation α) (gives : α → Prop) : Prop :=
  Ensures (Interpreter.Admitted FunctionDeclaration.WellPlaced) Interruption.IsOrderly
    computation gives

/-- Values whose functions are well placed. -/
abbrev PlacedValue : Value → Prop := Value.Admitted FunctionDeclaration.WellPlaced

theorem isOrderly_error (error : RuntimeError) : Interruption.IsOrderly (.error error) :=
  trivial

theorem orderly_result {completion : Completion}
    (fits : completion.Fits ⟨false, true⟩) : Orderly (result completion) PlacedValue := by
  cases completion with
  | normal => exact ensures_pure trivial
  | returning value => exact ensures_pure fits.2
  | breaking | continuing => cases fits

/-- Evaluation with some fuel is orderly: of expressions, of calls of well placed functions and of
well placed statements. -/
structure OrderlyWithin (fuel : Nat) : Prop where
  evaluate : ∀ frame tree, Orderly (Interpreter.evaluate fuel frame tree) PlacedValue
  invoke : ∀ callable arguments, PlacedValue (.callable callable) →
    (∀ argument ∈ arguments, PlacedValue argument) →
    Orderly (Interpreter.invoke fuel callable arguments) PlacedValue
  execute : ∀ frame statement surroundings, statement.WellPlaced surroundings →
    Orderly (Interpreter.execute fuel frame statement) (Completion.Fits surroundings)

namespace OrderlyWithin

variable {fuel : Nat}

theorem evaluate_succ (within : OrderlyWithin fuel) (frame : Nat) (tree : Expr) :
    Orderly (Interpreter.evaluate (fuel + 1) frame tree) PlacedValue := by
  cases tree with
  | literal value => exact ensures_pure (Value.isPlain_ofLiteral value).admitted
  | reference name => exact ensures_lookup frame (isOrderly_error _)
  | grouping inner => exact within.evaluate frame inner
  | unary operator operand =>
      apply (within.evaluate frame operand).bind
      intro operandValue _
      exact ensures_operate (operator.meaning.fitsOperator_apply operandValue)
        fun _ _ => isOrderly_error _
  | binary left operator right =>
      apply (within.evaluate frame left).bind
      intro leftValue _
      apply (within.evaluate frame right).bind
      intro rightValue _
      exact ensures_operate (operator.meaning.fitsOperator_apply leftValue rightValue)
        fun _ _ => isOrderly_error _
  | logical left operator right =>
      apply (within.evaluate frame left).bind
      intro leftValue left_placed
      split
      · exact ensures_pure left_placed
      · exact within.evaluate frame right
  | assign name value =>
      apply (within.evaluate frame value).bind
      intro assigned assigned_placed
      exact ensures_assign frame (isOrderly_error _) assigned_placed
  | call callee paren arguments =>
      apply (within.evaluate frame callee).bind
      intro calleeValue callee_placed
      apply (ensures_mapM arguments fun tree _ => within.evaluate frame tree).bind
      intro values values_placed
      apply (ensures_resolve (isOrderly_error _) (fun _ _ => isOrderly_error _) callee_placed
        values.length).bind
      intro callable callable_placed
      exact ensures_deepen (isOrderly_error _)
        (within.invoke callable values callable_placed values_placed)

theorem invoke_succ (within : OrderlyWithin fuel) (callable : Callable) (arguments : List Value)
    (callable_placed : PlacedValue (.callable callable))
    (arguments_placed : ∀ argument ∈ arguments, PlacedValue argument) :
    Orderly (Interpreter.invoke (fuel + 1) callable arguments) PlacedValue := by
  rcases callable with ⟨identity, function⟩
  cases function with
  | clock => exact ensures_readClock
  | declared declaration closure =>
      apply (ensures_newFrame (some closure)).bind
      intro frame _
      apply (ensures_defineAll frame declaration.parameters arguments_placed).bind
      intro _ _
      have body_orderly : Orderly
          (inOrder (Interpreter.execute fuel frame) declaration.body)
          (Completion.Fits ⟨false, true⟩) := by
        apply ensures_inOrder trivial
        intro statement statement_mem
        exact within.execute frame statement _ (callable_placed statement statement_mem)
      apply body_orderly.bind
      intro completion fits
      exact orderly_result fits

theorem declare_orderly (within : OrderlyWithin fuel) (frame : Nat)
    (declaration : VariableDeclaration) :
    Orderly (declare (Interpreter.evaluate fuel frame) frame declaration) fun _ => True :=
  ensures_declare trivial (fun tree _ => within.evaluate frame tree)
    fun _ value_placed => ensures_define frame declaration.name.lexeme value_placed

theorem loopFrame_orderly (within : OrderlyWithin fuel) (frame : Nat)
    (initializer : ForInitializer) :
    Orderly (loopFrame (Interpreter.evaluate fuel) frame initializer)
      fun inner => inner = frame ∨ True :=
  ensures_loopFrame (ensures_newFrame (some frame))
    (fun declaration _ inner _ => within.declare_orderly inner declaration)
    fun tree _ inner _ => within.evaluate inner tree

theorem loop_orderly (within : OrderlyWithin fuel) (frame : Nat) (condition : Option Expr)
    {body : Stmt} {surroundings : Surroundings} {after : Evaluation Unit}
    (body_placed : body.WellPlaced ⟨true, surroundings.inFunction⟩)
    (after_orderly : Orderly after fun _ => True) :
    Orderly
      (repeatTurn
        (turn (test (Interpreter.evaluate fuel frame) condition)
          (Interpreter.execute fuel frame body) after) fuel)
      (Completion.Fits surroundings) := by
  have returned : ∀ value, Completion.Fits ⟨true, surroundings.inFunction⟩ (.returning value) →
      Completion.Fits surroundings (.returning value) := fun _ fits => fits
  exact ensures_loop trivial trivial returned (fun tree _ => within.evaluate frame tree)
    (within.execute frame body _ body_placed) after_orderly fuel

theorem execute_succ (within : OrderlyWithin fuel) (frame : Nat) {statement : Stmt}
    {surroundings : Surroundings} (placed : statement.WellPlaced surroundings) :
    Orderly (Interpreter.execute (fuel + 1) frame statement)
      (Completion.Fits surroundings) := by
  cases placed with
  | @expression _ value =>
      exact (within.evaluate frame value).bind fun _ _ => ensures_pure trivial
  | @print _ keyword value =>
      apply (within.evaluate frame value).bind
      intro printed _
      exact (ensures_print (fun _ => isOrderly_error _) printed).bind fun _ _ => ensures_pure trivial
  | @sleep _ keyword duration =>
      apply (within.evaluate frame duration).bind
      intro milliseconds _
      exact (ensures_sleep (isOrderly_error _) milliseconds).bind fun _ _ => ensures_pure trivial
  | @declareVariable _ declaration =>
      exact (within.declare_orderly frame declaration).bind fun _ _ => ensures_pure trivial
  | @declareFunction _ name _ body body_placed =>
      apply (ensures_newCallable frame body_placed).bind
      intro function function_placed
      exact (ensures_define frame name.lexeme function_placed).bind
        fun _ _ => ensures_pure trivial
  | block statements_placed =>
      apply (ensures_newFrame (some frame)).bind
      intro inner _
      apply ensures_inOrder trivial
      intro statement statement_mem
      exact within.execute inner statement _ (statements_placed statement statement_mem)
  | @ifThen _ condition consequence consequence_placed =>
      exact ensures_branch (within.evaluate frame condition)
        (within.execute frame consequence _ consequence_placed) (ensures_pure trivial)
  | @ifElse _ condition consequence alternative consequence_placed alternative_placed =>
      exact ensures_branch (within.evaluate frame condition)
        (within.execute frame consequence _ consequence_placed)
        (within.execute frame alternative _ alternative_placed)
  | @whileLoop _ condition body body_placed =>
      exact within.loop_orderly frame (some condition) body_placed (ensures_pure trivial)
  | @forLoop _ initializer condition increment body body_placed =>
      apply (within.loopFrame_orderly frame initializer).bind
      intro inner _
      apply within.loop_orderly inner condition body_placed
      exact ensures_lastClause trivial fun tree _ => within.evaluate inner tree
  | breakLoop placed | continueLoop placed => exact ensures_pure placed
  | @returnValue _ value placed =>
      apply (ensures_orNil trivial value fun tree _ => within.evaluate frame tree).bind
      intro returned returned_placed
      exact ensures_pure ⟨placed, returned_placed⟩

end OrderlyWithin

theorem orderlyWithin (fuel : Nat) : OrderlyWithin fuel := by
  induction fuel with
  | zero =>
      exact ⟨fun _ _ => ensures_abort trivial, fun _ _ _ _ => ensures_abort trivial,
        fun _ _ _ _ => ensures_abort trivial⟩
  | succ fuel within =>
      exact ⟨within.evaluate_succ, within.invoke_succ,
        fun frame _ _ placed => within.execute_succ frame placed⟩

end Evaluation

namespace Interpreter

open Evaluation

theorem orderly_interpret (fuel : Nat) {program : List Stmt}
    (placed : ∀ statement ∈ program, statement.WellPlaced ⟨false, false⟩) :
    Orderly (interpret fuel program) fun _ => True := by
  apply ensures_interpret
  · intro statement statement_mem
    exact (orderlyWithin fuel).execute globals statement _ (placed statement statement_mem)
  · intro completion isJump fits
    cases completion with
    | normal => exact absurd rfl isJump
    | breaking | continuing => cases fits
    | returning => cases fits.1

end Interpreter

end Scriptlet
