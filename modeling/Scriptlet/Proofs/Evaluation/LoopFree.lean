import Scriptlet.Proofs.Evaluation.Admission
import Scriptlet.Proofs.Evaluation.Compositional

/-!
# Programs without loops finish

Without loops only calls can make a run long, and there can be only so many calls within each other.
The size of a statement, with a share for each call that can still be added to those in progress,
is therefore enough fuel, provided that the share covers the body of every function that can be
called. Functions of earlier programs can be called too, so this is an invariant of all values in
all frames.
-/

namespace Scriptlet

namespace Stmt

mutual

/-- Whether a statement contains no loop, the bodies of functions that it declares included. -/
def loopFree : Stmt → Bool
  | .whileLoop _ _ | .forLoop _ _ _ _ => false
  | .declareFunction _ _ body => listLoopFree body
  | .block statements => listLoopFree statements
  | .ifThen _ consequence => consequence.loopFree
  | .ifElse _ consequence alternative => consequence.loopFree && alternative.loopFree
  | .expression _ | .print _ _ | .declareVariable _ | .breakLoop | .continueLoop
  | .returnValue _ | .sleep _ _ => true

/-- Whether there is no loop in statements. -/
def listLoopFree : List Stmt → Bool
  | [] => true
  | statement :: others => statement.loopFree && listLoopFree others

end

theorem listLoopFree_iff {statements : List Stmt} :
    listLoopFree statements = true ↔ ∀ statement ∈ statements, statement.loopFree = true := by
  induction statements with
  | nil => simp [listLoopFree]
  | cons statement others ih => simp [listLoopFree, ih]

end Stmt

/-- Functions without loops whose bodies are no larger than a bound. -/
def FunctionDeclaration.Bounded (bound : Nat) (declaration : FunctionDeclaration) : Prop :=
  Stmt.listLoopFree declaration.body = true ∧ sizeOf declaration.body ≤ bound

/-- A run has an end. -/
def Interruption.IsEnd (stop : Interruption) : Prop :=
  stop ≠ .abort .exhausted

namespace Evaluation

/-- Values whose functions are bounded. -/
abbrev BoundedValue (bound : Nat) : Value → Prop :=
  Value.Admitted (FunctionDeclaration.Bounded bound)

/-- Completions that return only bounded values. -/
abbrev BoundedCompletion (bound : Nat) : Completion → Prop :=
  Completion.Admitted (FunctionDeclaration.Bounded bound)

/-- States at a call depth in which all functions are bounded. -/
def BoundedAt (bound depth : Nat) (state : Interpreter) : Prop :=
  state.Admitted (FunctionDeclaration.Bounded bound) ∧ state.callDepth = depth

/-- A computation that starts at a call depth finishes, and leaves depth and bound as they are. -/
abbrev Finishes {α : Type} (bound depth : Nat) (computation : Evaluation α)
    (gives : α → Prop) : Prop :=
  Ensures (BoundedAt bound depth) Interruption.IsEnd computation gives

variable {α : Type} {bound depth : Nat}

theorem isEnd_error (error : RuntimeError) : Interruption.IsEnd (.error error) := by
  rintro ⟨⟩

theorem Ensures.finishes {computation : Evaluation α} {gives : α → Prop}
    (ensures : Ensures (Interpreter.Admitted (FunctionDeclaration.Bounded bound))
      Interruption.IsEnd computation gives)
    (kept : ∀ state, (Outcome.state (computation state)).callDepth = state.callDepth) :
    Finishes bound depth computation gives := by
  rintro before ⟨admitted, rfl⟩
  have depth_eq := kept before
  cases ended : computation before with
  | ok value after =>
      rw [ended] at depth_eq
      have outcome := ensures.of_ok admitted ended
      exact ⟨⟨outcome.1, depth_eq⟩, outcome.2⟩
  | error stop after =>
      rw [ended] at depth_eq
      have outcome := ensures.of_error admitted ended
      exact ⟨⟨outcome.1, depth_eq⟩, outcome.2⟩

theorem finishes_deepen {gives : α → Prop} (paren : Token.OfKind .rightParen)
    {body : Evaluation α}
    (finishes : depth < maxCallDepth → Finishes bound (depth + 1) body gives) :
    Finishes bound depth (deepen paren body) gives := by
  rintro before ⟨admitted, rfl⟩
  rcases Nat.lt_or_ge before.callDepth maxCallDepth with shallow | deep
  · have outcome := finishes shallow before.entered ⟨admitted, rfl⟩
    rw [deepen_of_lt shallow]
    cases ended : body before.entered with
    | ok value after | error stop after =>
        rw [ended] at outcome
        refine ⟨⟨outcome.1.1, ?_⟩, outcome.2⟩
        rw [Interpreter.left, outcome.1.2, Nat.add_sub_cancel]
  · simp only [deepen, deep, if_true]
    exact ⟨⟨admitted, rfl⟩, isEnd_error _⟩

theorem finishes_result {completion : Completion}
    (completion_bounded : BoundedCompletion bound completion) :
    Finishes bound depth (result completion) (BoundedValue bound) := by
  cases completion with
  | normal => exact ensures_pure trivial
  | returning value => exact ensures_pure (completion_bounded value rfl)
  | breaking | continuing => exact ensures_abort (by rintro ⟨⟩)

/-- The fuel for the calls that can still be added to those in progress. -/
def callFuel (bound depth : Nat) : Nat :=
  (maxCallDepth - depth) * (bound + 2)

theorem callFuel_of_lt (shallow : depth < maxCallDepth) :
    callFuel bound depth = callFuel bound (depth + 1) + (bound + 2) := by
  obtain ⟨more, more_eq⟩ : ∃ more, maxCallDepth - depth = more + 1 :=
    ⟨maxCallDepth - depth - 1, by omega⟩
  have rest_eq : maxCallDepth - (depth + 1) = more := by omega
  rw [callFuel, callFuel, more_eq, rest_eq, Nat.succ_mul]

/-- Evaluation finishes with some fuel, if the fuel covers what is evaluated and the calls that it
can make. -/
structure FinishesWithin (bound fuel : Nat) : Prop where
  evaluate : ∀ depth frame (tree : Expr), sizeOf tree + callFuel bound depth ≤ fuel →
    Finishes bound depth (Interpreter.evaluate fuel frame tree) (BoundedValue bound)
  invoke : ∀ depth callable arguments, BoundedValue bound (.callable callable) →
    (∀ argument ∈ arguments, BoundedValue bound argument) →
    bound + 1 + callFuel bound depth ≤ fuel →
    Finishes bound depth (Interpreter.invoke fuel callable arguments) (BoundedValue bound)
  execute : ∀ depth frame (statement : Stmt), statement.loopFree = true →
    sizeOf statement ≤ bound → sizeOf statement + callFuel bound depth ≤ fuel →
    Finishes bound depth (Interpreter.execute fuel frame statement) (BoundedCompletion bound)

namespace FinishesWithin

variable {fuel : Nat}

theorem evaluate_succ (within : FinishesWithin bound fuel) (depth frame : Nat) (tree : Expr)
    (enough : sizeOf tree + callFuel bound depth ≤ fuel + 1) :
    Finishes bound depth (Interpreter.evaluate (fuel + 1) frame tree) (BoundedValue bound) := by
  cases tree with
  | literal value => exact ensures_pure (Value.isPlain_ofLiteral value).admitted
  | reference name =>
      exact (ensures_lookup frame (isEnd_error _)).finishes (quiet_lookup frame name).callDepth_eq
  | grouping inner =>
      simp only [Expr.grouping.sizeOf_spec] at enough
      exact within.evaluate depth frame inner (by omega)
  | unary operator operand =>
      simp only [Expr.unary.sizeOf_spec] at enough
      apply (within.evaluate depth frame operand (by omega)).bind
      intro operandValue _
      exact (ensures_operate (operator.meaning.fitsOperator_apply operandValue)
        fun _ _ => isEnd_error _).finishes
          (quiet_operate operator.token _).callDepth_eq
  | binary left operator right =>
      simp only [Expr.binary.sizeOf_spec] at enough
      apply (within.evaluate depth frame left (by omega)).bind
      intro leftValue _
      apply (within.evaluate depth frame right (by omega)).bind
      intro rightValue _
      exact (ensures_operate (operator.meaning.fitsOperator_apply leftValue rightValue)
        fun _ _ => isEnd_error _).finishes
          (quiet_operate operator.token _).callDepth_eq
  | logical left operator right =>
      simp only [Expr.logical.sizeOf_spec] at enough
      apply (within.evaluate depth frame left (by omega)).bind
      intro leftValue left_bounded
      split
      · exact ensures_pure left_bounded
      · exact within.evaluate depth frame right (by omega)
  | assign name value =>
      simp only [Expr.assign.sizeOf_spec] at enough
      apply (within.evaluate depth frame value (by omega)).bind
      intro assigned assigned_bounded
      exact (ensures_assign frame (isEnd_error _) assigned_bounded).finishes
        (quiet_assign frame name assigned).callDepth_eq
  | call callee paren arguments =>
      simp only [Expr.call.sizeOf_spec] at enough
      apply (within.evaluate depth frame callee (by omega)).bind
      intro calleeValue callee_bounded
      have arguments_finish : ∀ argument ∈ arguments,
          Finishes bound depth (Interpreter.evaluate fuel frame argument) (BoundedValue bound) := by
        intro argument argument_mem
        have smaller := List.sizeOf_lt_of_mem argument_mem
        exact within.evaluate depth frame argument (by omega)
      apply (ensures_mapM arguments arguments_finish).bind
      intro values values_bounded
      apply ((ensures_resolve (isEnd_error _) (fun _ _ => isEnd_error _) callee_bounded
        values.length).finishes
        (quiet_resolve paren calleeValue values.length).callDepth_eq).bind
      intro callable callable_bounded
      apply finishes_deepen paren
      intro shallow
      rw [callFuel_of_lt shallow] at enough
      exact within.invoke (depth + 1) callable values callable_bounded values_bounded (by omega)

theorem statements_finish (within : FinishesWithin bound fuel) (depth frame : Nat)
    {statements : List Stmt} (loopFree : Stmt.listLoopFree statements = true)
    (small : sizeOf statements ≤ bound) (enough : sizeOf statements + callFuel bound depth ≤ fuel) :
    Finishes bound depth (inOrder (Interpreter.execute fuel frame) statements)
      (BoundedCompletion bound) := by
  apply ensures_inOrder (by rintro value ⟨⟩)
  intro statement statement_mem
  have smaller := List.sizeOf_lt_of_mem statement_mem
  exact within.execute depth frame statement
    (Stmt.listLoopFree_iff.mp loopFree statement statement_mem) (by omega) (by omega)

theorem invoke_succ (within : FinishesWithin bound fuel) (depth : Nat) (callable : Callable)
    (arguments : List Value) (callable_bounded : BoundedValue bound (.callable callable))
    (arguments_bounded : ∀ argument ∈ arguments, BoundedValue bound argument)
    (enough : bound + 1 + callFuel bound depth ≤ fuel + 1) :
    Finishes bound depth (Interpreter.invoke (fuel + 1) callable arguments)
      (BoundedValue bound) := by
  rcases callable with ⟨identity, function⟩
  cases function with
  | clock => exact ensures_readClock.finishes quiet_readClock.callDepth_eq
  | declared declaration closure =>
      obtain ⟨loopFree, small⟩ : declaration.Bounded bound := callable_bounded
      apply ((ensures_newFrame (some closure)).finishes (quiet_newFrame _).callDepth_eq).bind
      intro frame _
      apply ((ensures_defineAll frame declaration.parameters arguments_bounded).finishes
        (quiet_defineAll _ _ _).callDepth_eq).bind
      intro _ _
      apply (within.statements_finish depth frame loopFree small (by omega)).bind
      intro completion completion_bounded
      exact finishes_result completion_bounded

theorem orNil_finishes (within : FinishesWithin bound fuel) (depth frame : Nat)
    (tree : Option Expr) (enough : sizeOf tree + callFuel bound depth ≤ fuel) :
    Finishes bound depth (orNil (Interpreter.evaluate fuel frame) tree) (BoundedValue bound) := by
  apply ensures_orNil trivial
  rintro inner rfl
  simp only [Option.some.sizeOf_spec] at enough
  exact within.evaluate depth frame inner (by omega)

theorem execute_succ (within : FinishesWithin bound fuel) (depth frame : Nat) (statement : Stmt)
    (loopFree : statement.loopFree = true) (small : sizeOf statement ≤ bound)
    (enough : sizeOf statement + callFuel bound depth ≤ fuel + 1) :
    Finishes bound depth (Interpreter.execute (fuel + 1) frame statement)
      (BoundedCompletion bound) := by
  have normal_bounded : BoundedCompletion bound .normal := by rintro value ⟨⟩
  cases statement with
  | whileLoop | forLoop => cases loopFree
  | expression tree =>
      simp only [Stmt.expression.sizeOf_spec] at enough
      exact (within.evaluate depth frame tree (by omega)).bind
        fun _ _ => ensures_pure normal_bounded
  | print keyword tree =>
      simp only [Stmt.print.sizeOf_spec] at enough
      apply (within.evaluate depth frame tree (by omega)).bind
      intro printed _
      exact ((ensures_print (fun _ => isEnd_error _) printed).finishes
        (callDepth_print keyword printed)).bind fun _ _ => ensures_pure normal_bounded
  | sleep keyword duration =>
      simp only [Stmt.sleep.sizeOf_spec] at enough
      apply (within.evaluate depth frame duration (by omega)).bind
      intro milliseconds _
      exact ((ensures_sleep (isEnd_error _) milliseconds).finishes
        (quiet_sleep keyword milliseconds).callDepth_eq).bind
          fun _ _ => ensures_pure normal_bounded
  | declareVariable declaration =>
      rcases declaration with ⟨name, initializer⟩
      simp only [Stmt.declareVariable.sizeOf_spec, VariableDeclaration.mk.sizeOf_spec] at enough
      have declared : Finishes bound depth
          (declare (Interpreter.evaluate fuel frame) frame ⟨name, initializer⟩)
          fun _ => True := by
        apply (within.orNil_finishes depth frame initializer (by omega)).bind
        intro value value_bounded
        exact (ensures_define frame name.lexeme value_bounded).finishes
          (quiet_define frame name.lexeme value).callDepth_eq
      exact declared.bind fun _ _ => ensures_pure normal_bounded
  | declareFunction name parameters body =>
      have body_bounded : FunctionDeclaration.Bounded bound ⟨name, parameters, body⟩ := by
        simp only [Stmt.declareFunction.sizeOf_spec] at small
        exact ⟨loopFree, by simp only; omega⟩
      apply ((ensures_newCallable frame body_bounded).finishes
        (quiet_newCallable _).callDepth_eq).bind
      intro function function_bounded
      exact ((ensures_define frame name.lexeme function_bounded).finishes
        (quiet_define frame name.lexeme function).callDepth_eq).bind
          fun _ _ => ensures_pure normal_bounded
  | block statements =>
      simp only [Stmt.block.sizeOf_spec] at small enough
      apply ((ensures_newFrame (some frame)).finishes (quiet_newFrame _).callDepth_eq).bind
      intro inner _
      exact within.statements_finish depth inner loopFree (by omega) (by omega)
  | ifThen condition consequence =>
      simp only [Stmt.ifThen.sizeOf_spec] at small enough
      exact ensures_branch (within.evaluate depth frame condition (by omega))
        (within.execute depth frame consequence loopFree (by omega) (by omega))
        (ensures_pure normal_bounded)
  | ifElse condition consequence alternative =>
      simp only [Stmt.ifElse.sizeOf_spec] at small enough
      rw [Stmt.loopFree, Bool.and_eq_true] at loopFree
      exact ensures_branch (within.evaluate depth frame condition (by omega))
        (within.execute depth frame consequence loopFree.1 (by omega) (by omega))
        (within.execute depth frame alternative loopFree.2 (by omega) (by omega))
  | breakLoop | continueLoop => exact ensures_pure (by rintro value ⟨⟩)
  | returnValue value =>
      simp only [Stmt.returnValue.sizeOf_spec] at enough
      apply (within.orNil_finishes depth frame value (by omega)).bind
      intro returned returned_bounded
      apply ensures_pure
      rintro _ ⟨⟩
      exact returned_bounded

end FinishesWithin

/-- Without fuel there is nothing to show: trees are never that small. -/
theorem finishesWithin (bound fuel : Nat) : FinishesWithin bound fuel := by
  induction fuel with
  | zero =>
      refine ⟨?_, ?_, ?_⟩
      · intro depth frame tree enough
        cases tree <;> simp at enough
      · intro depth callable arguments _ _ enough
        omega
      · intro depth frame statement _ _ enough
        cases statement <;> simp at enough
  | succ fuel within => exact ⟨within.evaluate_succ, within.invoke_succ, within.execute_succ⟩

end Evaluation

namespace Interpreter

open Evaluation

/-- The fuel that a program without loops needs at most. -/
def loopFreeFuel (bound : Nat) : Nat :=
  bound + callFuel bound 0

theorem finishes_interpret {bound : Nat} {program : List Stmt}
    (loopFree : ∀ statement ∈ program, statement.loopFree = true)
    (small : sizeOf program ≤ bound) :
    Finishes bound 0 (interpret (loopFreeFuel bound) program) fun _ => True := by
  apply ensures_interpret
  · intro statement statement_mem
    have smaller := List.sizeOf_lt_of_mem statement_mem
    exact (finishesWithin bound _).execute 0 globals statement (loopFree statement statement_mem)
      (by omega) (by rw [loopFreeFuel]; omega)
  · rintro completion - - ⟨⟩

end Interpreter

end Scriptlet
