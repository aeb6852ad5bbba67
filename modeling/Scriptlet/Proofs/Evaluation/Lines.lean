import Scriptlet.Proofs.Evaluation.Copy

/-!
# Evaluation apart from lines

A program does the same without the lines of its tokens: on a copy of the state it gives the same
values and completions, prints the same text and fails with the same errors apart from lines. By
induction on the fuel this holds of expressions, calls and statements together.

It follows that programs that are the same up to lines, run on states that are the same up to lines
and up to what they wrote earlier, write the same text and end alike.
-/

namespace Scriptlet

namespace Evaluation

theorem forall₂_map_self {Item Image : Type} (image : Item → Image) (items : List Item) :
    List.Forall₂ (fun item other => image item = other) items (items.map image) := by
  rw [List.forall₂_map_right_iff, List.forall₂_same]
  exact fun _ _ => rfl

theorem rel_map_self {Item Image : Type} (image : Item → Image) (item : Option Item) :
    Option.Rel (fun item other => image item = other) item (item.map image) := by
  cases item with
  | none => exact .none
  | some => exact .some rfl

/-- With some fuel, evaluation does the same without lines. -/
structure IgnoresLinesWithin (earlier : Output) (fuel : Nat) : Prop where
  evaluate : ∀ frame tree,
    Follows earlier (Interpreter.evaluate fuel frame tree)
      (Interpreter.evaluate fuel frame tree.withoutLines) ValueCopied
  invoke : ∀ callable arguments copies, List.Forall₂ ValueCopied arguments copies →
    Follows earlier (Interpreter.invoke fuel callable arguments)
      (Interpreter.invoke fuel callable.withoutLines copies) ValueCopied
  execute : ∀ frame statement,
    Follows earlier (Interpreter.execute fuel frame statement)
      (Interpreter.execute fuel frame statement.withoutLines) (CompletionsMatch ValueCopied)

namespace IgnoresLinesWithin

variable {earlier : Output} {fuel : Nat}

theorem evaluate_all (within : IgnoresLinesWithin earlier fuel) (frame : Nat) :
    ∀ tree other, tree.withoutLines = other →
      Follows earlier (Interpreter.evaluate fuel frame tree)
        (Interpreter.evaluate fuel frame other) ValueCopied := by
  rintro tree _ rfl
  exact within.evaluate frame tree

theorem evaluate_succ (within : IgnoresLinesWithin earlier fuel) (frame : Nat) (tree : Expr) :
    Follows earlier (Interpreter.evaluate (fuel + 1) frame tree)
      (Interpreter.evaluate (fuel + 1) frame tree.withoutLines) ValueCopied := by
  cases tree with
  | literal value => exact lockstep_pure (Value.withoutLines_ofLiteral value)
  | reference name => exact follows_lookup frame name
  | grouping inner => exact within.evaluate frame inner
  | unary operator operand =>
      apply (within.evaluate frame operand).bind
      rintro value _ rfl
      rw [Operator.withoutLine_meaning, UnaryOperator.apply_withoutLines]
      exact follows_operate operator.token _
  | binary left operator right =>
      apply (within.evaluate frame left).bind
      rintro leftValue _ rfl
      apply (within.evaluate frame right).bind
      rintro rightValue _ rfl
      rw [Operator.withoutLine_meaning, BinaryOperator.apply_withoutLines]
      exact follows_operate operator.token _
  | logical left operator right =>
      apply (within.evaluate frame left).bind
      rintro leftValue _ rfl
      rw [Operator.withoutLine_meaning, LogicalOperator.decidedBy_withoutLines]
      split
      · exact lockstep_pure rfl
      · exact within.evaluate frame right
  | assign name value =>
      apply (within.evaluate frame value).bind
      rintro assigned _ rfl
      exact follows_assign frame name assigned
  | call callee paren arguments =>
      apply (within.evaluate frame callee).bind
      rintro calleeValue _ rfl
      rw [Expr.listWithoutLines_eq]
      apply (lockstep_mapM (forall₂_map_self Expr.withoutLines arguments)
        (within.evaluate_all frame)).bind
      intro values copies values_copied
      rw [← values_copied.length_eq]
      apply (follows_resolve paren calleeValue values.length).bind
      rintro callable _ rfl
      exact follows_deepen paren (within.invoke callable values copies values_copied)

theorem execute_all (within : IgnoresLinesWithin earlier fuel) (frame : Nat) :
    ∀ statement other, statement.withoutLines = other →
      Follows earlier (Interpreter.execute fuel frame statement)
        (Interpreter.execute fuel frame other) (CompletionsMatch ValueCopied) := by
  rintro statement _ rfl
  exact within.execute frame statement

theorem inOrder_follows (within : IgnoresLinesWithin earlier fuel) (frame : Nat)
    (statements : List Stmt) :
    Follows earlier (inOrder (Interpreter.execute fuel frame) statements)
      (inOrder (Interpreter.execute fuel frame) (Stmt.listWithoutLines statements))
      (CompletionsMatch ValueCopied) := by
  rw [Stmt.listWithoutLines_eq]
  exact lockstep_inOrder (forall₂_map_self Stmt.withoutLines statements) (within.execute_all frame)

theorem invoke_succ (within : IgnoresLinesWithin earlier fuel) (callable : Callable)
    (arguments copies : List Value) (arguments_copied : List.Forall₂ ValueCopied arguments copies) :
    Follows earlier (Interpreter.invoke (fuel + 1) callable arguments)
      (Interpreter.invoke (fuel + 1) callable.withoutLines copies) ValueCopied := by
  rcases callable with ⟨identity, function⟩
  cases function with
  | clock => exact follows_readClock
  | declared declaration closure =>
      apply (follows_newFrame (some closure)).bind
      rintro frame _ rfl
      apply (follows_defineAll frame declaration.parameters arguments_copied).bind
      intro _ _ _
      apply (within.inOrder_follows frame declaration.body).bind
      intro completion copy completions_match
      exact follows_result completions_match

theorem orNil_follows (within : IgnoresLinesWithin earlier fuel) (frame : Nat)
    (tree : Option Expr) :
    Follows earlier (orNil (Interpreter.evaluate fuel frame) tree)
      (orNil (Interpreter.evaluate fuel frame) (tree.map Expr.withoutLines)) ValueCopied :=
  lockstep_orNil rfl (rel_map_self Expr.withoutLines tree) (within.evaluate_all frame)

theorem test_follows (within : IgnoresLinesWithin earlier fuel) (frame : Nat)
    (condition : Option Expr) :
    Follows earlier (test (Interpreter.evaluate fuel frame) condition)
      (test (Interpreter.evaluate fuel frame) (condition.map Expr.withoutLines)) Eq := by
  apply lockstep_test (rel_map_self Expr.withoutLines condition) ?_ (within.evaluate_all frame)
  rintro value _ rfl
  exact value.isTruthy_withoutLines.symm

theorem declare_follows (within : IgnoresLinesWithin earlier fuel) (frame : Nat)
    (declaration : VariableDeclaration) :
    Follows earlier (declare (Interpreter.evaluate fuel frame) frame declaration)
      (declare (Interpreter.evaluate fuel frame) frame declaration.withoutLines)
      fun _ _ => True := by
  apply (within.orNil_follows frame declaration.initializer).bind
  rintro value _ rfl
  exact follows_define frame declaration.name.lexeme value

theorem loopFrame_follows (within : IgnoresLinesWithin earlier fuel) (frame : Nat)
    (initializer : ForInitializer) :
    Follows earlier (loopFrame (Interpreter.evaluate fuel) frame initializer)
      (loopFrame (Interpreter.evaluate fuel) frame initializer.withoutLines) Eq := by
  cases initializer with
  | absent => exact lockstep_pure rfl
  | declaration declaration =>
      apply (follows_newFrame (some frame)).bind
      rintro inner _ rfl
      exact (within.declare_follows inner declaration).bind fun _ _ _ => lockstep_pure rfl
  | expression tree =>
      apply (follows_newFrame (some frame)).bind
      rintro inner _ rfl
      exact (within.evaluate inner tree).bind fun _ _ _ => lockstep_pure rfl

theorem loop_follows (within : IgnoresLinesWithin earlier fuel) (frame : Nat)
    (condition : Option Expr) (body : Stmt) {after afterCopy : Evaluation Unit}
    (afters : Follows earlier after afterCopy fun _ _ => True) :
    Follows earlier
      (repeatTurn
        (turn (test (Interpreter.evaluate fuel frame) condition)
          (Interpreter.execute fuel frame body) after) fuel)
      (repeatTurn
        (turn (test (Interpreter.evaluate fuel frame) (condition.map Expr.withoutLines))
          (Interpreter.execute fuel frame body.withoutLines) afterCopy) fuel)
      (CompletionsMatch ValueCopied) :=
  lockstep_repeatTurn .exhausted
    (lockstep_turn (within.test_follows frame condition) (within.execute frame body) afters) fuel

theorem execute_succ (within : IgnoresLinesWithin earlier fuel) (frame : Nat) (statement : Stmt) :
    Follows earlier (Interpreter.execute (fuel + 1) frame statement)
      (Interpreter.execute (fuel + 1) frame statement.withoutLines)
      (CompletionsMatch ValueCopied) := by
  cases statement with
  | expression tree =>
      exact (within.evaluate frame tree).bind fun _ _ _ => lockstep_pure .normal
  | print keyword tree =>
      apply (within.evaluate frame tree).bind
      rintro printed _ rfl
      exact (follows_print keyword printed).bind fun _ _ _ => lockstep_pure .normal
  | sleep keyword duration =>
      apply (within.evaluate frame duration).bind
      rintro milliseconds _ rfl
      exact (follows_sleep keyword milliseconds).bind fun _ _ _ => lockstep_pure .normal
  | declareVariable declaration =>
      exact (within.declare_follows frame declaration).bind fun _ _ _ => lockstep_pure .normal
  | declareFunction name parameters body =>
      apply (follows_newCallable (.declared ⟨name, parameters, body⟩ frame)).bind
      rintro function _ rfl
      exact (follows_define frame name.lexeme function).bind fun _ _ _ => lockstep_pure .normal
  | block statements =>
      apply (follows_newFrame (some frame)).bind
      rintro inner _ rfl
      exact within.inOrder_follows inner statements
  | ifThen condition consequence =>
      apply (within.test_follows frame (some condition)).bind
      rintro holds _ rfl
      cases holds with
      | true => exact within.execute frame consequence
      | false => exact lockstep_pure .normal
  | ifElse condition consequence alternative =>
      apply (within.test_follows frame (some condition)).bind
      rintro holds _ rfl
      cases holds with
      | true => exact within.execute frame consequence
      | false => exact within.execute frame alternative
  | whileLoop condition body =>
      exact within.loop_follows frame (some condition) body (lockstep_pure trivial)
  | forLoop initializer condition increment body =>
      apply (within.loopFrame_follows frame initializer).bind
      rintro inner _ rfl
      apply within.loop_follows inner condition body
      exact (within.orNil_follows inner increment).bind fun _ _ _ => lockstep_pure trivial
  | breakLoop => exact lockstep_pure .breaking
  | continueLoop => exact lockstep_pure .continuing
  | returnValue value =>
      apply (within.orNil_follows frame value).bind
      intro returned copy value_copied
      exact lockstep_pure (.returning value_copied)

end IgnoresLinesWithin

theorem ignoresLinesWithin (earlier : Output) (fuel : Nat) :
    IgnoresLinesWithin earlier fuel := by
  induction fuel with
  | zero =>
      exact ⟨fun _ _ => lockstep_abort .exhausted, fun _ _ _ _ => lockstep_abort .exhausted,
        fun _ _ => lockstep_abort .exhausted⟩
  | succ fuel within => exact ⟨within.evaluate_succ, within.invoke_succ, within.execute_succ⟩

end Evaluation

namespace Interpreter

open Evaluation

theorem interpret_follows (earlier : Output) (fuel : Nat) (program : List Stmt) :
    Follows earlier (interpret fuel program) (interpret fuel (Stmt.listWithoutLines program))
      fun _ _ => True := by
  induction program with
  | nil => exact lockstep_pure trivial
  | cons statement others ih =>
      apply ((ignoresLinesWithin earlier fuel).execute globals statement).bind
      intro completion copy completions_match
      cases completions_match with
      | normal => exact ih
      | breaking => exact lockstep_abort (.strayJump .breaking)
      | continuing => exact lockstep_abort (.strayJump .continuing)
      | returning value_copied => exact lockstep_abort (.strayJump (.returning value_copied))

/-- A state without lines and without what was written. -/
def blank (state : Interpreter) : Interpreter :=
  { state with
    scopes := state.scopes.withoutLines
    output := { state.output with written := .empty } }

/-- States that are the same up to lines and up to what was written. -/
def Alike (state other : Interpreter) : Prop :=
  state.blank = other.blank

theorem copied_blank (state : Interpreter) : Copied state.output state state.blank where
  scopes_eq := rfl
  nextIdentity_eq := rfl
  callDepth_eq := rfl
  clock_eq := rfl
  room_eq := rfl
  refusal_eq := rfl
  written_eq := ByteArray.append_empty.symm
  unlimited := id

theorem Copied.blank_eq {earlier : Output} {state copy : Interpreter}
    (copied : Copied earlier state copy) :
    state.blank = { copy with output := { copy.output with written := .empty } } := by
  simp only [blank, copied.scopes_eq, copied.nextIdentity_eq, copied.callDepth_eq,
    copied.clock_eq, copied.room_eq, copied.refusal_eq]

/-- States that are alike and have written the same text since two earlier outputs, which had no
limit if they have none now. -/
structure AlikeSince (before otherBefore : Output) (state other : Interpreter) : Prop where
  alike : state.Alike other
  unlimited : before.room = none → state.output.room = none
  printed : ∃ text, state.output.written = before.written ++ text ∧
    other.output.written = otherBefore.written ++ text

/-- Interruptions that are the same up to lines. -/
def StopsAlike (stop other : Interruption) : Prop :=
  ∃ copy, StopCopied stop copy ∧ StopCopied other copy

theorem AlikeSince.of_copied {before otherBefore : Output} {state other copy : Interpreter}
    (copied : Copied before state copy) (other_copied : Copied otherBefore other copy) :
    AlikeSince before otherBefore state other where
  alike := copied.blank_eq.trans other_copied.blank_eq.symm
  unlimited limitless := copied.room_eq.trans (copied.unlimited limitless)
  printed := ⟨copy.output.written, copied.written_eq, other_copied.written_eq⟩

/-- Programs that are the same up to lines do the same to states that are alike. -/
theorem interpret_alike {state other : Interpreter} (alike : state.Alike other)
    {program otherProgram : List Stmt}
    (same : Stmt.listWithoutLines program = Stmt.listWithoutLines otherProgram) (fuel : Nat) :
    OutcomesMatch (AlikeSince state.output other.output) StopsAlike (fun _ _ => True)
      (interpret fuel program state) (interpret fuel otherProgram other) := by
  have other_copied := other.copied_blank
  rw [← alike] at other_copied
  have outcomes := interpret_follows state.output fuel program state _ state.copied_blank
  have otherOutcomes := interpret_follows other.output fuel otherProgram other _ other_copied
  rw [← same] at otherOutcomes
  revert outcomes otherOutcomes
  generalize interpret fuel program state = outcome,
    interpret fuel otherProgram other = otherOutcome,
    interpret fuel (Stmt.listWithoutLines program) state.blank = copyOutcome
  intro outcomes otherOutcomes
  cases outcomes with
  | ok _ copied =>
      cases otherOutcomes with
      | ok _ other_copied => exact .ok trivial (.of_copied copied other_copied)
  | error stop_copied copied =>
      cases otherOutcomes with
      | error other_stop_copied other_copied =>
          exact .error ⟨_, stop_copied, other_stop_copied⟩ (.of_copied copied other_copied)

section

variable {state other after : Interpreter} {program otherProgram : List Stmt} {fuel : Nat}

theorem exists_ok_of_alike (alike : state.Alike other)
    (same : Stmt.listWithoutLines program = Stmt.listWithoutLines otherProgram)
    (run : interpret fuel program state = .ok () after) :
    ∃ otherAfter, interpret fuel otherProgram other = .ok () otherAfter ∧
      AlikeSince state.output other.output after otherAfter := by
  have outcomes := interpret_alike alike same fuel
  rw [run] at outcomes
  generalize interpret fuel otherProgram other = otherOutcome at outcomes
  cases outcomes with
  | ok _ alikeSince => exact ⟨_, rfl, alikeSince⟩

theorem exists_error_of_alike {error : RuntimeError} (alike : state.Alike other)
    (same : Stmt.listWithoutLines program = Stmt.listWithoutLines otherProgram)
    (run : interpret fuel program state = .error (.error error) after) :
    ∃ otherError otherAfter,
      interpret fuel otherProgram other = .error (.error otherError) otherAfter ∧
        otherError.withoutLine = error.withoutLine ∧
        AlikeSince state.output other.output after otherAfter := by
  have outcomes := interpret_alike alike same fuel
  rw [run] at outcomes
  generalize interpret fuel otherProgram other = otherOutcome at outcomes
  cases outcomes with
  | error stops_alike alikeSince =>
      rcases stops_alike with ⟨copy, copied, other_copied⟩
      cases copied
      generalize error.withoutLine = errorCopy at other_copied ⊢
      cases other_copied
      exact ⟨_, _, rfl, rfl, alikeSince⟩

/-- The text written since is the same on alike states. -/
theorem AlikeSince.written_eq {before otherBefore : Output}
    (alikeSince : AlikeSince before otherBefore state other) {text : ByteArray}
    (written_eq : state.output.written = before.written ++ text) :
    other.output.written = otherBefore.written ++ text := by
  rcases alikeSince.printed with ⟨printed, state_printed, other_printed⟩
  rw [written_eq, ByteArray.append_right_inj] at state_printed
  rw [other_printed, state_printed]

end

/-- A program is run part by part. -/
theorem interpret_append (fuel : Nat) (first second : List Stmt) :
    interpret fuel (first ++ second) = (do interpret fuel first; interpret fuel second) := by
  induction first with
  | nil => rfl
  | cons statement others ih =>
      simp only [List.cons_append, interpret, bind_assoc]
      congr 1
      funext completion
      cases completion with
      | normal => exact ih
      | breaking | continuing | returning => rfl

theorem interpret_append_of_ok {fuel : Nat} {first : List Stmt} {state middle : Interpreter}
    (run : interpret fuel first state = .ok () middle) (second : List Stmt) :
    interpret fuel (first ++ second) state = interpret fuel second middle := by
  simp only [interpret_append, bind, EStateM.bind, run]

theorem interpret_append_of_error {fuel : Nat} {first : List Stmt} {state after : Interpreter}
    {stop : Interruption} (run : interpret fuel first state = .error stop after)
    (second : List Stmt) : interpret fuel (first ++ second) state = .error stop after := by
  simp only [interpret_append, bind, EStateM.bind, run]

end Interpreter

end Scriptlet
