import Scriptlet.Proofs.Evaluation.Ensures
import Scriptlet.Proofs.Evaluation.Fuel
import Scriptlet.Proofs.Evaluation.Pairing
import Scriptlet.Text.Grapheme

/-!
# What counting loops mean

A counting loop means a `while` loop whose body is a block of the body and the increment, in a block
with the first clause. This is so if no `continue` goes past the increment.

The two loops are compared by way of a third one, which is run as the counting loop is but makes a
frame in each turn. Against the counting loop these frames are relays, and the fuel is the same.
Against its `while` form the frames are the same, and each outlasts the other with more fuel.
-/

namespace Scriptlet

namespace Stmt

mutual

/-- Whether a statement has a `continue` that is for a loop around the statement. -/
def continues : Stmt → Bool
  | .continueLoop => true
  | .block statements => listContinues statements
  | .ifThen _ consequence => consequence.continues
  | .ifElse _ consequence alternative => consequence.continues || alternative.continues
  | .expression _ | .print _ _ | .declareVariable _ | .declareFunction _ _ _ | .whileLoop _ _
  | .forLoop _ _ _ _ | .breakLoop | .returnValue _ | .sleep _ _ => false

/-- Whether some statement of a list can continue a loop around it. -/
def listContinues : List Stmt → Bool
  | [] => false
  | statement :: others => statement.continues || listContinues others

end

theorem listContinues_eq_false_iff {statements : List Stmt} :
    listContinues statements = false ↔
      ∀ statement ∈ statements, statement.continues = false := by
  induction statements with
  | nil => simp [listContinues]
  | cons statement others ih => simp [listContinues, ih]

/-- The `while` loop that a counting loop means. -/
def whileForm (initializer : ForInitializer) (condition increment : Option Expr) (body : Stmt) :
    Stmt :=
  let loop := whileLoop (condition.getD (.literal (.boolean true)))
    (.block (body :: increment.toList.map expression))
  match initializer with
  | .absent => loop
  | .declaration declaration => .block [.declareVariable declaration, loop]
  | .expression first => .block [.expression first, loop]

end Stmt

namespace Evaluation

variable {α β : Type}

/-- A computation does not complete with a `continue`. -/
abbrev NeverContinues (computation : Evaluation Completion) : Prop :=
  Ensures (fun _ => True) (fun _ => True) computation (· ≠ .continuing)

theorem ensures_trivially (computation : Evaluation α) :
    Ensures (fun _ => True) (fun _ => True) computation fun _ => True := by
  intro before _
  cases computation before <;> exact ⟨trivial, trivial⟩

theorem neverContinues_after {computation : Evaluation α} {next : α → Evaluation Completion}
    (each : ∀ value, NeverContinues (next value)) : NeverContinues (computation >>= next) :=
  (ensures_trivially computation).bind fun value _ => each value

/-- No `continue` leaves a loop. -/
theorem neverContinues_repeatTurn (condition : Evaluation Bool) (body : Evaluation Completion)
    (after : Evaluation Unit) (fuel : Nat) :
    NeverContinues (repeatTurn (turn condition body after) fuel) := by
  apply ensures_repeatTurn trivial
  exact ensures_turn nofun (fun _ _ => nofun) (ensures_trivially condition)
    (ensures_trivially body) (ensures_trivially after)

theorem neverContinues_execute (fuel frame : Nat) {statement : Stmt}
    (continues : statement.continues = false) :
    NeverContinues (Interpreter.execute fuel frame statement) := by
  induction fuel generalizing frame statement with
  | zero => exact ensures_abort trivial
  | succ fuel ih =>
      cases statement with
      | continueLoop => cases continues
      | breakLoop => exact ensures_pure nofun
      | expression | declareVariable | returnValue =>
          exact neverContinues_after fun _ => ensures_pure nofun
      | print | sleep | declareFunction =>
          exact neverContinues_after fun _ => neverContinues_after fun _ => ensures_pure nofun
      | block statements =>
          apply neverContinues_after
          intro inner
          apply ensures_inOrder nofun
          intro statement statement_mem
          exact ih inner (Stmt.listContinues_eq_false_iff.mp continues statement statement_mem)
      | ifThen condition consequence =>
          apply neverContinues_after
          intro holds
          cases holds with
          | true => exact ih frame continues
          | false => exact ensures_pure nofun
      | ifElse condition consequence alternative =>
          rw [Stmt.continues, Bool.or_eq_false_iff] at continues
          apply neverContinues_after
          intro holds
          cases holds with
          | true => exact ih frame continues.1
          | false => exact ih frame continues.2
      | whileLoop => exact neverContinues_repeatTurn _ _ _ fuel
      | forLoop => exact neverContinues_after fun _ => neverContinues_repeatTurn _ _ _ fuel

/-- Runs a body and, if it completes normally, what is to be done after it. -/
def andThen (body : Evaluation Completion) (after : Evaluation Unit) : Evaluation Completion := do
  match ← body with
  | .normal => do
      after
      pure .normal
  | completion => pure completion

/-- Only values that a computation gives matter for what comes after it. -/
theorem bind_congr_of_ensures {computation : Evaluation α} {gives : α → Prop}
    (ensures : Ensures (fun _ => True) (fun _ => True) computation gives)
    {next other : α → Evaluation β} (same : ∀ value, gives value → next value = other value) :
    computation >>= next = computation >>= other := by
  funext state
  cases ended : computation state with
  | error stop after => rw [bind_of_error ended, bind_of_error ended]
  | ok value after =>
      rw [bind_of_ok ended, bind_of_ok ended, same value (ensures.of_ok trivial ended).2]

/-- What is done after the body of a loop can be done as the end of the body, unless a `continue`
goes past it. -/
theorem turn_andThen (condition : Evaluation Bool) {body : Evaluation Completion}
    (neverContinues : NeverContinues body) (after : Evaluation Unit) :
    turn condition (andThen body after) (pure ()) = turn condition body after := by
  simp only [turn, andThen, bind_assoc]
  apply bind_congr
  intro holds
  cases holds with
  | false => rfl
  | true =>
      apply bind_congr_of_ensures neverContinues
      intro completion continues
      cases completion with
      | normal => simp only [bind_assoc, pure_bind]
      | continuing => exact absurd rfl continues
      | breaking | returning => rfl

/-- What a counting loop does after its body. -/
def advance (evaluate : Expr → Evaluation Value) (increment : Option Expr) : Evaluation Unit := do
  let _ ← orNil evaluate increment
  pure ()

/-- A loop that makes a frame in each turn, for the body and for what is done after it. -/
def scopedLoop (start : Evaluation Nat) (condition : Nat → Evaluation Bool)
    (body : Nat → Evaluation Completion) (after : Nat → Evaluation Unit) (turns : Nat) :
    Evaluation Completion := do
  let inner ← start
  repeatTurn
    (turn (condition inner)
      (do
        let scope ← newFrame (some inner)
        andThen (body scope) (after scope))
      (pure ()))
    turns

theorem inStep_andThen {Stage : Type} {evolution : Evolution Stage} {stage : Stage}
    {body otherBody : Evaluation Completion} {after otherAfter : Evaluation Unit}
    (bodies : evolution.InStep stage body otherBody evolution.Completions)
    (afters : evolution.InStep stage after otherAfter fun _ _ _ => True) :
    evolution.InStep stage (andThen body after) (andThen otherBody otherAfter)
      evolution.Completions := by
  apply bodies.bind
  intro later isLater completion other completions_match
  cases completions_match with
  | normal =>
      exact (afters.later isLater).bind fun _ _ _ _ _ => Evolution.inStep_completion .normal
  | breaking => exact Evolution.inStep_completion .breaking
  | continuing => exact Evolution.inStep_completion .continuing
  | returning alike => exact Evolution.inStep_completion (.returning alike)

theorem outlasts_andThen {body longerBody : Evaluation Completion}
    {after longerAfter : Evaluation Unit} (bodies : Outlasts body longerBody)
    (afters : Outlasts after longerAfter) :
    Outlasts (andThen body after) (andThen longerBody longerAfter) := by
  apply bodies.bind
  intro completion
  cases completion with
  | normal => exact afters.bind fun _ => outlasts_pure _
  | breaking | continuing | returning => exact outlasts_pure _

theorem outlasts_advance {evaluate longer : Expr → Evaluation Value}
    (each : ∀ tree, Outlasts (evaluate tree) (longer tree)) (increment : Option Expr) :
    Outlasts (advance evaluate increment) (advance longer increment) :=
  (outlasts_orNil each increment).bind fun _ => outlasts_pure ()

theorem outlasts_scopedLoop {start longerStart : Evaluation Nat}
    {condition longerCondition : Nat → Evaluation Bool}
    {body longerBody : Nat → Evaluation Completion} {after longerAfter : Nat → Evaluation Unit}
    (starts : Outlasts start longerStart)
    (conditions : ∀ inner, Outlasts (condition inner) (longerCondition inner))
    (bodies : ∀ scope, Outlasts (body scope) (longerBody scope))
    (afters : ∀ scope, Outlasts (after scope) (longerAfter scope))
    {turns more : Nat} (enough : turns ≤ more) :
    Outlasts (scopedLoop start condition body after turns)
      (scopedLoop longerStart longerCondition longerBody longerAfter more) := by
  apply starts.bind
  intro inner
  refine outlasts_repeatTurn (outlasts_turn (conditions inner) ?_ (outlasts_pure ())) enough
  apply (quiet_newFrame (some inner)).outlasts.bind
  exact fun scope => outlasts_andThen (bodies scope) (afters scope)

theorem inOrder_singleton (run : Stmt → Evaluation Completion) (statement : Stmt) :
    inOrder run [statement] = run statement := by
  rw [inOrder]
  refine Eq.trans ?_ (bind_pure (run statement))
  apply bind_congr
  intro completion
  cases completion <;> rfl

theorem inOrder_cons_of_normal {run : Stmt → Evaluation Completion} {statement : Stmt}
    {computation : Evaluation α} (run_eq : run statement = computation >>= fun _ => pure .normal)
    (others : List Stmt) :
    inOrder run (statement :: others) = computation >>= fun _ => inOrder run others := by
  rw [inOrder, run_eq, bind_assoc]
  rfl

end Evaluation

namespace Interpreter

open Evaluation

variable (initializer : ForInitializer) (condition increment : Option Expr) (body : Stmt)

/-- A counting loop that makes a frame in each turn. The body and the increment have fuel of their
own. -/
def scopedFor (fuel bodyFuel incrementFuel frame : Nat) : Evaluation Completion :=
  scopedLoop (loopFrame (evaluate fuel) frame initializer)
    (fun inner => test (evaluate fuel inner) condition)
    (fun scope => execute bodyFuel scope body)
    (fun scope => advance (evaluate incrementFuel scope) increment) fuel

theorem execute_turnBlock (fuel frame : Nat) :
    execute (fuel + 2) frame (.block (body :: increment.toList.map .expression)) =
      (do
        let scope ← newFrame (some frame)
        andThen (execute (fuel + 1) scope body) (advance (evaluate fuel scope) increment)) := by
  apply bind_congr
  intro scope
  apply bind_congr
  intro completion
  cases completion with
  | breaking | continuing | returning => rfl
  | normal =>
      cases increment with
      | none => rfl
      | some tree =>
          refine (inOrder_singleton _ _).trans ?_
          simp only [execute, advance, orNil, bind_assoc, pure_bind]

theorem test_getD (fuel frame : Nat) :
    test (evaluate (fuel + 1) frame) (some (condition.getD (.literal (.boolean true))))
      = test (evaluate (fuel + 1) frame) condition := by
  cases condition <;> rfl

theorem execute_whileLoop (fuel frame : Nat) :
    execute (fuel + 3) frame
        (.whileLoop (condition.getD (.literal (.boolean true)))
          (.block (body :: increment.toList.map .expression)))
      = scopedFor .absent condition increment body (fuel + 2) (fuel + 1) fuel frame := by
  rw [execute, test_getD, execute_turnBlock]
  rfl

/-- The `while` form, with a little more fuel for the nesting of its blocks, is such a loop. -/
theorem exists_execute_whileForm :
    ∃ nesting, ∀ fuel frame,
      execute (fuel + 3 + nesting) frame (.whileForm initializer condition increment body)
        = scopedFor initializer condition increment body (fuel + 2) (fuel + 1) fuel frame := by
  have loop_eq := execute_whileLoop condition increment body
  cases initializer with
  | absent => exact ⟨0, loop_eq⟩
  | declaration | expression =>
      refine ⟨1, fun fuel frame => ?_⟩
      rw [scopedFor, scopedLoop, loopFrame, bind_assoc]
      apply bind_congr
      intro inner
      rw [inOrder_cons_of_normal rfl, inOrder_singleton, loop_eq, bind_assoc]
      rfl

variable {initializer condition increment body}

theorem outlasts_scopedFor {fuel bodyFuel incrementFuel more moreBody moreIncrement : Nat}
    (enough : fuel ≤ more) (body_enough : bodyFuel ≤ moreBody)
    (increment_enough : incrementFuel ≤ moreIncrement) (frame : Nat) :
    Outlasts (scopedFor initializer condition increment body fuel bodyFuel incrementFuel frame)
      (scopedFor initializer condition increment body more moreBody moreIncrement frame) := by
  have within := outlastsWithin enough
  apply outlasts_scopedLoop
  · exact outlasts_loopFrame within.evaluate frame initializer
  · exact fun inner => outlasts_test (within.evaluate inner) condition
  · exact fun scope => (outlastsWithin body_enough).execute scope body
  · exact fun scope => outlasts_advance ((outlastsWithin increment_enough).evaluate scope) increment
  · exact enough

/-- The runs of a statement in a frame, with any fuel. -/
abbrev runs (frame : Nat) (statement : Stmt) : Nat → Evaluation Completion :=
  fun fuel => execute fuel frame statement

theorem outlasts_runs (frame : Nat) (statement : Stmt) {fuel more : Nat} (enough : fuel ≤ more) :
    Outlasts (runs frame statement fuel) (runs frame statement more) :=
  (outlastsWithin enough).execute frame statement

theorem runs_outlasted_next (frame : Nat) (statement : Stmt) :
    OutlastsInTime (runs frame statement) (fun fuel => runs frame statement (fuel + 1)) :=
  fun fuel => ⟨fuel, outlasts_runs frame statement (Nat.le_succ fuel)⟩

theorem next_outlasted_runs (frame : Nat) (statement : Stmt) :
    OutlastsInTime (fun fuel => runs frame statement (fuel + 1)) (runs frame statement) :=
  fun fuel => ⟨fuel + 1, outlasts_runs frame statement (Nat.le_refl _)⟩

theorem scopedFor_outlasted (frame : Nat) :
    OutlastsInTime (fun fuel => scopedFor initializer condition increment body fuel fuel fuel frame)
      (runs frame (.whileForm initializer condition increment body)) := by
  obtain ⟨nesting, form_eq⟩ := exists_execute_whileForm initializer condition increment body
  intro fuel
  refine ⟨fuel + 3 + nesting, ?_⟩
  rw [runs, form_eq]
  exact outlasts_scopedFor (by omega) (by omega) (by omega) frame

theorem whileForm_outlasted (frame : Nat) :
    OutlastsInTime (runs frame (.whileForm initializer condition increment body))
      (fun fuel => scopedFor initializer condition increment body fuel fuel fuel frame) := by
  obtain ⟨nesting, form_eq⟩ := exists_execute_whileForm initializer condition increment body
  intro fuel
  have prolonged := (outlastsWithin (show fuel ≤ fuel + 3 + nesting by omega)).execute frame
    (.whileForm initializer condition increment body)
  rw [form_eq] at prolonged
  refine ⟨fuel + 2, prolonged.trans ?_⟩
  exact outlasts_scopedFor (by omega) (by omega) (by omega) frame

/-- In step with the counting loop, with as much fuel in each turn, the frames of the turns are
relays. -/
theorem inStep_scopedFor {pairing : Pairing} {frame other : Nat}
    (partners : pairing.partners frame other) (declares : body.DeclaresNothing)
    (continues : body.continues = false) (fuel : Nat) :
    Pairing.evolution.InStep pairing
      (execute (fuel + 1) frame (.forLoop initializer condition increment body))
      (scopedFor initializer condition increment body fuel fuel fuel other)
      Pairing.evolution.Completions := by
  have within := Pairing.isKept.within fuel
  apply (within.loopFrame_kept Pairing.isKept (.partners partners) body (.inr declares)
    initializer).bind
  rintro later _ inner otherInner ⟨inner_match, -⟩
  rw [← turn_andThen _ (neverContinues_execute fuel inner continues)]
  apply Evolution.inStep_repeatTurn
  apply Evolution.inStep_turn (within.test_kept inner_match condition) ?_
    (Evolution.inStep_pure fun _ _ => trivial)
  -- Where the turn of the second loop makes its frame, the first one stays in that of the loop.
  have turns : Pairing.evolution.InStep later
      (pure inner >>= fun scope =>
        andThen (execute fuel scope body) (advance (evaluate fuel scope) increment))
      (newFrame (some otherInner) >>= fun scope =>
        andThen (execute fuel scope body) (advance (evaluate fuel scope) increment))
      Pairing.evolution.Completions := by
    apply (Pairing.inStep_relay inner_match).bind
    intro now _ scope otherScope scopes_match
    apply inStep_andThen (within.execute scopes_match body (.inr declares))
    exact (within.orNil_kept scopes_match increment).bind
      fun _ _ _ _ _ => Evolution.inStep_pure fun _ _ => trivial
  exact turns

/-- Runs from a state end with the same error, or in the same way with corresponding values if they
return any. Their last states are paired, and each frame that existed before is its own partner. -/
def EndPaired (before : Interpreter) (outcome other : Outcome Completion) : Prop :=
  ∃ pairing : Pairing,
    (∀ frame < before.scopes.frames.size, pairing.partners frame frame) ∧
    OutcomesMatch pairing.States Eq (CompletionsMatch pairing.Values) outcome other

namespace EndPaired

variable {before : Interpreter} {outcome other : Outcome Completion}

theorem finished_iff (paired : EndPaired before outcome other) :
    (∀ after, outcome ≠ .error (.abort .exhausted) after) ↔
      ∀ after, other ≠ .error (.abort .exhausted) after := by
  obtain ⟨_, -, outcomes⟩ := paired
  cases outcomes with
  | ok => simp
  | error stops_same => simp [stops_same]

theorem output_eq (paired : EndPaired before outcome other) :
    (Outcome.state outcome).output = (Outcome.state other).output := by
  obtain ⟨_, -, outcomes⟩ := paired
  cases outcomes with
  | ok _ related | error _ related => exact related.output_eq

end EndPaired

section

variable {state : Interpreter} {left right : Nat → Evaluation Completion}
  (paired : ∀ fuel, EndPaired state (left fuel state) (right fuel state))

include paired

theorem exists_ends_right {outcome : Outcome Completion} (ends : Ends left state outcome) :
    ∃ other, Ends right state other ∧ EndPaired state outcome other := by
  obtain ⟨fuel, rfl, finished⟩ := ends
  exact ⟨_, ⟨fuel, rfl, (paired fuel).finished_iff.mp finished⟩, paired fuel⟩

theorem exists_ends_left {other : Outcome Completion} (ends : Ends right state other) :
    ∃ outcome, Ends left state outcome := by
  obtain ⟨fuel, rfl, finished⟩ := ends
  exact ⟨_, fuel, rfl, (paired fuel).finished_iff.mpr finished⟩

theorem prints_iff {text : ByteArray} : Prints left state text ↔ Prints right state text := by
  simp only [Prints, (paired _).output_eq]

end

theorem endPaired_scopedFor (initializer : ForInitializer) (condition increment : Option Expr)
    (declares : body.DeclaresNothing) (continues : body.continues = false) {state : Interpreter}
    (closed : state.scopes.Closed) {frame : Nat} (isFrame : frame < state.scopes.frames.size)
    (fuel : Nat) :
    EndPaired state (execute (fuel + 1) frame (.forLoop initializer condition increment body) state)
      (scopedFor initializer condition increment body fuel fuel fuel frame state) := by
  have partners : ∀ frame < state.scopes.frames.size,
      (Pairing.self state.scopes).partners frame frame := fun _ isFrame => ⟨rfl, isFrame⟩
  obtain ⟨later, isLater, outcomes⟩ :=
    inStep_scopedFor (partners frame isFrame) declares continues fuel _
      (Pairing.evolution.before_refl _) state state (Pairing.states_self closed)
  exact ⟨later, fun old isOld => isLater.partners (partners old isOld), outcomes⟩

/-- Two statements mean the same when they are run in a frame of a state: both end or neither does,
they end in the same way, and they print the same text, also if they do not end. -/
structure RunAlike (frame : Nat) (state : Interpreter) (statement other : Stmt) : Prop where
  ends_iff : (∃ outcome, Ends (runs frame statement) state outcome) ↔
    ∃ outcome, Ends (runs frame other) state outcome
  endPaired : ∀ outcome otherOutcome, Ends (runs frame statement) state outcome →
    Ends (runs frame other) state otherOutcome → EndPaired state outcome otherOutcome
  prints_iff : ∀ text, Prints (runs frame statement) state text ↔
    Prints (runs frame other) state text

/-- A counting loop that was parsed means its `while` form, in every frame of every state. Functions
that its turns leave behind capture frames that differ by an empty one. -/
theorem forLoop_means_whileForm
    (produced : (Stmt.forLoop initializer condition increment body).Produced)
    (continues : body.continues = false) {state : Interpreter} (closed : state.scopes.Closed)
    {frame : Nat} (isFrame : frame < state.scopes.frames.size) :
    RunAlike frame state (.forLoop initializer condition increment body)
      (.whileForm initializer condition increment body) := by
  have declares : body.DeclaresNothing :=
    produced.declaresOnly.mono fun _ declared_eq => by cases declared_eq
  have paired := endPaired_scopedFor initializer condition increment declares continues closed
    isFrame
  have delayed := runs_outlasted_next frame (.forLoop initializer condition increment body)
  have hastened := next_outlasted_runs frame (.forLoop initializer condition increment body)
  have forth : ∀ outcome,
      Ends (runs frame (.forLoop initializer condition increment body)) state outcome →
      ∃ other, Ends (runs frame (.whileForm initializer condition increment body)) state other ∧
        EndPaired state outcome other := by
    intro outcome ends
    obtain ⟨other, other_ends, alike⟩ := exists_ends_right paired (delayed.ends ends)
    exact ⟨other, (scopedFor_outlasted frame).ends other_ends, alike⟩
  refine ⟨⟨?_, ?_⟩, ?_, fun text => ⟨?_, ?_⟩⟩
  · rintro ⟨outcome, ends⟩
    obtain ⟨other, other_ends, -⟩ := forth outcome ends
    exact ⟨other, other_ends⟩
  · rintro ⟨other, ends⟩
    have scoped_ends := (whileForm_outlasted frame).ends ends
    obtain ⟨outcome, outcome_ends⟩ := exists_ends_left paired scoped_ends
    exact ⟨outcome, hastened.ends outcome_ends⟩
  · intro outcome other ends other_ends
    obtain ⟨_, same_ends, alike⟩ := forth outcome ends
    rwa [other_ends.unique (outlasts_runs frame _) same_ends]
  · intro prints
    exact (scopedFor_outlasted frame).prints ((prints_iff paired).mp (delayed.prints prints))
  · intro prints
    exact hastened.prints ((prints_iff paired).mpr ((whileForm_outlasted frame).prints prints))

/-- The functions that the turns declare are the ones whose frames differ, and a turn ends the loop
with a `break`. -/
theorem forLoop_means_whileForm_closure :
    ∃ initializer condition increment body,
      Stmt.forLoop initializer condition increment body
        ∈ (Parser.parseProgram (Scan.ofString .graphemes
          "for (var i = 0; i < 3; i = i + 1) { fun f() { print i; } if (i == 2) break; f(); }"
          ).tokens.body).1 ∧
      RunAlike globals (start .unlimited (.ofReadings fun _ => 0))
        (.forLoop initializer condition increment body)
        (.whileForm initializer condition increment body) := by
  have shape : ((Parser.parseProgram (Scan.ofString .graphemes
      "for (var i = 0; i < 3; i = i + 1) { fun f() { print i; } if (i == 2) break; f(); }"
        ).tokens.body).1.map fun
          | .forLoop _ _ _ body => some body.continues
          | _ => none) = [some false] := by
    decide +kernel
  obtain ⟨statement, program_eq, statement_shape⟩ := List.map_eq_singleton_iff.mp shape
  cases statement with
  | forLoop initializer condition increment body =>
      have statement_mem : Stmt.forLoop initializer condition increment body ∈ _ :=
        program_eq ▸ List.mem_singleton_self _
      have wellScoped := wellScoped_start .unlimited (.ofReadings fun _ => 0)
      exact ⟨initializer, condition, increment, body, statement_mem,
        forLoop_means_whileForm (.program statement_mem) (Option.some.inj statement_shape)
          wellScoped.closed wellScoped.globals_isFrame⟩
  | _ => cases statement_shape

end Interpreter

end Scriptlet
