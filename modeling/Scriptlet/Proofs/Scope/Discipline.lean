import Scriptlet.Proofs.Evaluation.Compositional
import Scriptlet.Proofs.Evaluation.Ensures
import Scriptlet.Proofs.Grammar.Declarations
import Scriptlet.Proofs.Scope.Chain
import Scriptlet.Text.Grapheme

/-!
# Scope discipline

A statement adds a name to a frame that existed before only if it is a declaration: its own name, to
the frame that it was executed in. All else that it declares, also in the calls that it makes, goes
to frames made meanwhile. Assignments add nothing: they go where the name is bound already.

The invariant is that the frames with numbers below a bound bind none but allowed names. A call runs
the body of the function in a new frame, so nothing has to be known of the functions in the state.
-/

namespace Scriptlet

open Evaluation (Outcome)

/-- The frames with numbers below a bound, which all exist, bind none but allowed names. -/
structure Interpreter.BindsOnly (bound : Nat) (allowed : Nat → String → Prop)
    (state : Interpreter) : Prop where
  size_le : bound ≤ state.scopes.frames.size
  allowed_of_binds : ∀ frame < bound, ∀ name, state.scopes.Binds name frame → allowed frame name

namespace Interpreter

variable {bound : Nat} {allowed : Nat → String → Prop} {state : Interpreter}

theorem BindsOnly.of_scopes_eq (bindsOnly : state.BindsOnly bound allowed) {other : Interpreter}
    (scopes_eq : other.scopes = state.scopes) : other.BindsOnly bound allowed := by
  obtain ⟨size_le, allowed_of_binds⟩ := bindsOnly
  rw [← scopes_eq] at size_le allowed_of_binds
  exact ⟨size_le, allowed_of_binds⟩

theorem BindsOnly.push (bindsOnly : state.BindsOnly bound allowed) (outer : Option Nat) :
    BindsOnly bound allowed { state with scopes := state.scopes.push outer } where
  size_le := by
    rw [Scopes.size_push]
    exact Nat.le_succ_of_le bindsOnly.size_le
  allowed_of_binds frame isOld name binds := by
    rw [Scopes.Binds, Scopes.bound_push] at binds
    exact bindsOnly.allowed_of_binds frame isOld name binds

theorem BindsOnly.define (bindsOnly : state.BindsOnly bound allowed) {frame : Nat} {name : String}
    (name_allowed : frame < bound → allowed frame name) (value : Value) :
    BindsOnly bound allowed { state with scopes := state.scopes.define frame name value } := by
  by_cases isFrame : frame < state.scopes.frames.size
  · have rebound := Scopes.rebound_define isFrame name value
    refine ⟨rebound.size_eq ▸ bindsOnly.size_le, ?_⟩
    intro other isOld asked binds
    rw [Scopes.Binds, rebound.bound_eq] at binds
    split at binds
    · next same =>
        obtain ⟨rfl, rfl⟩ := same
        exact name_allowed isOld
    · exact bindsOnly.allowed_of_binds other isOld asked binds
  · rw [Scopes.define_of_not_lt isFrame]
    exact bindsOnly

end Interpreter

namespace Evaluation

variable {α : Type} {bound : Nat} {allowed : Nat → String → Prop}

/-- A computation adds none but allowed names to the frames with numbers below a bound, however it
ends. -/
abbrev Disciplined (bound : Nat) (allowed : Nat → String → Prop) (computation : Evaluation α)
    (gives : α → Prop) : Prop :=
  Ensures (Interpreter.BindsOnly bound allowed) (fun _ => True) computation gives

theorem disciplined_of_scopes_eq {computation : Evaluation α}
    (kept : ∀ state, (Outcome.state (computation state)).scopes = state.scopes) :
    Disciplined bound allowed computation fun _ => True := by
  intro before bindsOnly
  have scopes_eq := kept before
  cases run : computation before with
  | ok value after | error stop after =>
      rw [run] at scopes_eq
      exact ⟨bindsOnly.of_scopes_eq scopes_eq, trivial⟩

theorem disciplined_lookup (frame : Nat) (name : Name) :
    Disciplined bound allowed (lookup frame name) fun _ => True := by
  apply disciplined_of_scopes_eq
  intro state
  simp only [lookup]
  split <;> rfl

theorem disciplined_operate (token : Token) (outcome : Except OperatorError Value) :
    Disciplined bound allowed (operate token outcome) fun _ => True := by
  cases outcome with
  | ok value => exact ensures_pure trivial
  | error error => exact ensures_fail trivial

theorem disciplined_resolve (paren : Token.OfKind .rightParen) (callee : Value) (count : Nat) :
    Disciplined bound allowed (resolve paren callee count) fun _ => True := by
  cases callee with
  | callable object =>
      simp only [resolve]
      split
      · exact ensures_pure trivial
      · exact ensures_fail trivial
  | nil | boolean | number | string => exact ensures_fail trivial

theorem disciplined_result (completion : Completion) :
    Disciplined bound allowed (result completion) fun _ => True := by
  cases completion with
  | normal | returning => exact ensures_pure trivial
  | breaking | continuing => exact ensures_abort trivial

theorem disciplined_print (keyword : Token.OfKind .printWord) (value : Value) :
    Disciplined bound allowed (print keyword value) fun _ => True := by
  apply disciplined_of_scopes_eq
  intro state
  simp only [print]
  split <;> rfl

theorem disciplined_sleep (keyword : Token.OfKind .sleepWord) (value : Value) :
    Disciplined bound allowed (sleep keyword value) fun _ => True := by
  apply disciplined_of_scopes_eq
  intro state
  cases value <;> rfl

theorem disciplined_assign (frame : Nat) (name : Name) (value : Value) :
    Disciplined bound allowed (assign frame name value) fun _ => True := by
  intro before bindsOnly
  rcases assign_cases frame name value before with
    ⟨owner, isNearest, assigned, -⟩ | ⟨-, undefined⟩
  · rw [assigned]
    refine ⟨bindsOnly.define ?_ value, trivial⟩
    intro isOld
    exact bindsOnly.allowed_of_binds owner isOld name.lexeme isNearest.holds
  · rw [undefined]
    exact ⟨bindsOnly, trivial⟩

theorem disciplined_define {frame : Nat} {name : String}
    (name_allowed : frame < bound → allowed frame name) (value : Value) :
    Disciplined bound allowed (define frame name value) fun _ => True :=
  ensures_modify fun _ bindsOnly => bindsOnly.define name_allowed value

/-- A new frame is none of those with small numbers. -/
theorem disciplined_newFrame (outer : Option Nat) :
    Disciplined bound allowed (newFrame outer) fun frame => bound ≤ frame := by
  intro before bindsOnly
  exact ⟨bindsOnly.push outer, bindsOnly.size_le⟩

theorem disciplined_defineAll {frame : Nat} (isNew : bound ≤ frame) (names : List Name)
    (values : List Value) :
    Disciplined bound allowed (defineAll frame names values) fun _ => True := by
  apply ensures_forM
  rintro ⟨name, value⟩ -
  exact disciplined_define (fun isOld => absurd isOld (Nat.not_lt.mpr isNew)) value

theorem disciplined_deepen (paren : Token.OfKind .rightParen) {body : Evaluation α}
    {gives : α → Prop} (disciplined : Disciplined bound allowed body gives) :
    Disciplined bound allowed (deepen paren body) gives := by
  intro before bindsOnly
  rcases Nat.lt_or_ge before.callDepth maxCallDepth with shallow | deep
  · have outcome := disciplined before.entered (bindsOnly.of_scopes_eq rfl)
    rw [deepen_of_lt shallow]
    cases run : body before.entered with
    | ok value after | error stop after =>
        rw [run] at outcome
        exact ⟨outcome.1.of_scopes_eq rfl, outcome.2⟩
  · simp only [deepen, deep, if_true]
    exact ⟨bindsOnly, trivial⟩

/-- Evaluation with some fuel is disciplined. Of a statement that runs in a frame with a small
number, what it declares there has to be allowed. -/
structure DisciplinedWithin (bound : Nat) (allowed : Nat → String → Prop) (fuel : Nat) :
    Prop where
  evaluate : ∀ frame tree,
    Disciplined bound allowed (Interpreter.evaluate fuel frame tree) fun _ => True
  invoke : ∀ callable arguments,
    Disciplined bound allowed (Interpreter.invoke fuel callable arguments) fun _ => True
  execute : ∀ frame statement, (frame < bound → statement.DeclaresOnly (allowed frame)) →
    Disciplined bound allowed (Interpreter.execute fuel frame statement) fun _ => True

namespace DisciplinedWithin

variable {fuel : Nat}

theorem evaluate_succ (within : DisciplinedWithin bound allowed fuel) (frame : Nat) (tree : Expr) :
    Disciplined bound allowed (Interpreter.evaluate (fuel + 1) frame tree) fun _ => True := by
  cases tree with
  | literal value => exact ensures_pure trivial
  | reference name => exact disciplined_lookup frame name
  | grouping inner => exact within.evaluate frame inner
  | unary operator operand =>
      exact (within.evaluate frame operand).bind fun _ _ => disciplined_operate operator.token _
  | binary left operator right =>
      apply (within.evaluate frame left).bind
      intro leftValue _
      exact (within.evaluate frame right).bind fun _ _ => disciplined_operate operator.token _
  | logical left operator right =>
      apply (within.evaluate frame left).bind
      intro leftValue _
      split
      · exact ensures_pure trivial
      · exact within.evaluate frame right
  | assign name value =>
      exact (within.evaluate frame value).bind fun assigned _ =>
        disciplined_assign frame name assigned
  | call callee paren arguments =>
      apply (within.evaluate frame callee).bind
      intro calleeValue _
      apply (ensures_mapM arguments fun tree _ => within.evaluate frame tree).bind
      intro values _
      apply (disciplined_resolve paren calleeValue values.length).bind
      intro callable _
      exact disciplined_deepen paren (within.invoke callable values)

theorem invoke_succ (within : DisciplinedWithin bound allowed fuel) (callable : Callable)
    (arguments : List Value) :
    Disciplined bound allowed (Interpreter.invoke (fuel + 1) callable arguments)
      fun _ => True := by
  rcases callable with ⟨identity, function⟩
  cases function with
  | clock => exact disciplined_of_scopes_eq fun _ => rfl
  | declared declaration closure =>
      apply (disciplined_newFrame (some closure)).bind
      intro frame isNew
      apply (disciplined_defineAll isNew declaration.parameters arguments).bind
      intro _ _
      have body_disciplined : Disciplined bound allowed
          (inOrder (Interpreter.execute fuel frame) declaration.body) fun _ => True := by
        apply ensures_inOrder trivial
        intro statement _
        exact within.execute frame statement fun isOld => absurd isOld (Nat.not_lt.mpr isNew)
      exact body_disciplined.bind fun completion _ => disciplined_result completion

theorem declare (within : DisciplinedWithin bound allowed fuel) {frame : Nat}
    {declaration : VariableDeclaration}
    (name_allowed : frame < bound → allowed frame declaration.name.lexeme) :
    Disciplined bound allowed
      (Evaluation.declare (Interpreter.evaluate fuel frame) frame declaration)
      fun _ => True :=
  ensures_declare trivial (fun tree _ => within.evaluate frame tree)
    fun value _ => disciplined_define name_allowed value

/-- A first clause declares in a frame of its own. -/
theorem loopFrame (within : DisciplinedWithin bound allowed fuel) (frame : Nat)
    (initializer : ForInitializer) :
    Disciplined bound allowed
      (Evaluation.loopFrame (Interpreter.evaluate fuel) frame initializer)
      fun inner => inner = frame ∨ bound ≤ inner := by
  apply ensures_loopFrame (disciplined_newFrame (some frame))
  · intro declaration _ inner isNew
    exact within.declare fun isOld => absurd isOld (Nat.not_lt.mpr isNew)
  · intro tree _ inner _
    exact within.evaluate inner tree

theorem loop (within : DisciplinedWithin bound allowed fuel) (frame : Nat)
    (condition : Option Expr) {body : Stmt} {after : Evaluation Unit}
    (body_allowed : frame < bound → body.DeclaresOnly (allowed frame))
    (after_disciplined : Disciplined bound allowed after fun _ => True) :
    Disciplined bound allowed
      (repeatTurn
        (turn (test (Interpreter.evaluate fuel frame) condition)
          (Interpreter.execute fuel frame body) after) fuel)
      fun _ => True :=
  ensures_loop trivial trivial (fun _ _ => trivial) (fun tree _ => within.evaluate frame tree)
    (within.execute frame body body_allowed) after_disciplined fuel

theorem execute_succ (within : DisciplinedWithin bound allowed fuel) (frame : Nat)
    {statement : Stmt} (declares : frame < bound → statement.DeclaresOnly (allowed frame)) :
    Disciplined bound allowed (Interpreter.execute (fuel + 1) frame statement)
      fun _ => True := by
  cases statement with
  | expression tree => exact (within.evaluate frame tree).bind fun _ _ => ensures_pure trivial
  | print keyword tree =>
      apply (within.evaluate frame tree).bind
      intro value _
      exact (disciplined_print keyword value).bind fun _ _ => ensures_pure trivial
  | sleep keyword duration =>
      apply (within.evaluate frame duration).bind
      intro value _
      exact (disciplined_sleep keyword value).bind fun _ _ => ensures_pure trivial
  | declareVariable declaration =>
      exact (within.declare declares).bind fun _ _ => ensures_pure trivial
  | declareFunction name parameters body =>
      apply (disciplined_of_scopes_eq fun _ => rfl).bind
      intro function _
      exact (disciplined_define declares function).bind fun _ _ => ensures_pure trivial
  | block statements =>
      apply (disciplined_newFrame (some frame)).bind
      intro inner isNew
      apply ensures_inOrder trivial
      intro statement _
      exact within.execute inner statement fun isOld => absurd isOld (Nat.not_lt.mpr isNew)
  | ifThen condition consequence =>
      exact ensures_branch (within.evaluate frame condition)
        (within.execute frame consequence declares) (ensures_pure trivial)
  | ifElse condition consequence alternative =>
      exact ensures_branch (within.evaluate frame condition)
        (within.execute frame consequence fun isOld => (declares isOld).1)
        (within.execute frame alternative fun isOld => (declares isOld).2)
  | whileLoop condition body =>
      exact within.loop frame (some condition) declares (ensures_pure trivial)
  | forLoop initializer condition increment body =>
      apply (within.loopFrame frame initializer).bind
      intro inner isInner
      apply within.loop inner condition
      · intro isOld
        -- The clauses only share a frame that existed before if there is no first clause.
        rcases isInner with rfl | isNew
        · exact declares isOld
        · exact absurd isOld (Nat.not_lt.mpr isNew)
      · exact ensures_lastClause trivial fun tree _ => within.evaluate inner tree
  | breakLoop | continueLoop => exact ensures_pure trivial
  | returnValue value =>
      exact (ensures_orNil trivial value fun tree _ => within.evaluate frame tree).bind
        fun _ _ => ensures_pure trivial

end DisciplinedWithin

theorem disciplinedWithin (bound : Nat) (allowed : Nat → String → Prop) (fuel : Nat) :
    DisciplinedWithin bound allowed fuel := by
  induction fuel with
  | zero =>
      exact ⟨fun _ _ => ensures_abort trivial, fun _ _ => ensures_abort trivial,
        fun _ _ _ => ensures_abort trivial⟩
  | succ fuel within =>
      exact ⟨within.evaluate_succ, within.invoke_succ,
        fun frame _ declares => within.execute_succ frame declares⟩

end Evaluation

/-- A frame that existed before binds what it bound before, and maybe allowed names. -/
def Scopes.AddsOnly (allowed : Nat → String → Prop) (before after : Scopes) : Prop :=
  ∀ frame < before.frames.size, ∀ name, after.Binds name frame →
    before.Binds name frame ∨ allowed frame name

/-- The frames that existed before bind no more names than they did. -/
abbrev Scopes.AddsNothing : Scopes → Scopes → Prop :=
  Scopes.AddsOnly fun _ _ => False

namespace Interpreter

open Evaluation

variable {α : Type} {gives : α → Prop} {allowed : Nat → String → Prop}

theorem bindsOnly_self (state : Interpreter) (allowed : Nat → String → Prop) :
    state.BindsOnly state.scopes.frames.size
      fun frame name => state.scopes.Binds name frame ∨ allowed frame name :=
  ⟨Nat.le_refl _, fun _ _ _ binds => .inl binds⟩

theorem addsOnly_of_disciplined {computation : Evaluation α} {state : Interpreter}
    (disciplined : Disciplined state.scopes.frames.size
      (fun frame name => state.scopes.Binds name frame ∨ allowed frame name) computation gives) :
    Scopes.AddsOnly allowed state.scopes (Outcome.state (computation state)).scopes := by
  have outcome := disciplined state (state.bindsOnly_self allowed)
  cases run : computation state with
  | ok value after | error stop after =>
      rw [run] at outcome
      exact outcome.1.allowed_of_binds

/-- Executing a statement adds a name to a frame that existed before only if the statement is a
declaration: its own name, in the frame that it was executed in. Evaluating an expression and calling
a function add none. All this holds from every state and however the execution ends. -/
theorem declarations_add_names :
    (∀ statement : Stmt, statement.Produced → ∀ fuel frame state,
      Scopes.AddsOnly (fun other name => other = frame ∧ statement.declared = some name)
        state.scopes (Outcome.state (execute fuel frame statement state)).scopes) ∧
    (∀ statement : Stmt, statement.Produced → statement.declared = none → ∀ fuel frame state,
      Scopes.AddsNothing state.scopes
        (Outcome.state (execute fuel frame statement state)).scopes) ∧
    (∀ tree fuel frame state, Scopes.AddsNothing state.scopes
      (Outcome.state (evaluate fuel frame tree state)).scopes) ∧
    (∀ callable arguments fuel state, Scopes.AddsNothing state.scopes
      (Outcome.state (invoke fuel callable arguments state)).scopes) := by
  have executed : ∀ statement : Stmt, statement.Produced → ∀ fuel frame state,
      Scopes.AddsOnly (fun other name => other = frame ∧ statement.declared = some name)
        state.scopes (Outcome.state (execute fuel frame statement state)).scopes := by
    intro statement produced fuel frame state
    apply addsOnly_of_disciplined
    apply (disciplinedWithin _ _ fuel).execute frame statement
    intro _
    exact produced.declaresOnly.mono fun name declared_eq => .inr ⟨rfl, declared_eq⟩
  refine ⟨executed, ?_, ?_, ?_⟩
  · intro statement produced undeclared fuel frame state other isOld name binds
    refine (executed statement produced fuel frame state other isOld name binds).imp_right ?_
    rintro ⟨-, declared_eq⟩
    rw [undeclared] at declared_eq
    cases declared_eq
  · intro tree fuel frame state
    exact addsOnly_of_disciplined ((disciplinedWithin _ _ fuel).evaluate frame tree)
  · intro callable arguments fuel state
    exact addsOnly_of_disciplined ((disciplinedWithin _ _ fuel).invoke callable arguments)

/-- The source has a fault, and what is made of it declares a variable and a function in its loop
body: both go to the frames of the turns. -/
theorem declarations_add_names_loop :
    ∃ statement : Stmt,
      statement ∈ (Parser.parseProgram (Scan.ofString .graphemes
        "if (a) var b; while (c) { var x; fun f() {} f(); }").tokens.body).1 ∧
      ∀ fuel frame state, Scopes.AddsNothing state.scopes
        (Outcome.state (execute fuel frame statement state)).scopes := by
  have declared_eq : (Parser.parseProgram (Scan.ofString .graphemes
      "if (a) var b; while (c) { var x; fun f() {} f(); }").tokens.body).1.map Stmt.declared
        = [none] := by
    decide +kernel
  obtain ⟨statement, program_eq, undeclared⟩ := List.map_eq_singleton_iff.mp declared_eq
  have statement_mem : statement ∈ (Parser.parseProgram (Scan.ofString .graphemes
      "if (a) var b; while (c) { var x; fun f() {} f(); }").tokens.body).1 := by
    rw [program_eq]
    exact List.mem_singleton_self statement
  exact ⟨statement, statement_mem,
    declarations_add_names.2.1 statement (.program statement_mem) undeclared⟩

end Interpreter

end Scriptlet
