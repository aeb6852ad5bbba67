import Scriptlet.Proofs.Evaluation.Admission
import Scriptlet.Proofs.Grammar.StatementProvenance

/-!
# Where runtime errors are reported

Evaluation reports an error at a token that stands in what it evaluates: in the program, or in the
body of a function that some earlier program left in the state. If a property holds of all these
tokens, it holds of the tokens of all errors. The kind of the token is one that fits the error.
-/

namespace Scriptlet

/-- The kinds of the tokens that an error is reported at. -/
def RuntimeError.kinds : RuntimeError → List Token.Kind
  | .undefinedVariable _ => [.identifier]
  | .operator _ error => error.kinds
  | .notCallable _ | .arityMismatch _ _ _ | .stackOverflow _ => [.rightParen]
  | .sleepDurationNotNumber _ => [.sleepWord]
  | .output .. => [.printWord]

/-- An error is reported at a token that has a property and is of a fitting kind. -/
structure RuntimeError.IsAt (onToken : Token → Prop) (error : RuntimeError) : Prop where
  token_holds : onToken error.token
  kind_mem : error.token.kind ∈ error.kinds

/-- Whether the error of an interruption, if it has one, fits its token and the token has a property. -/
def Interruption.IsAt (onToken : Token → Prop) : Interruption → Prop
  | .error raised => raised.IsAt onToken
  | .abort _ => True

/-- Functions all of whose bodies' tokens have a property. -/
def FunctionDeclaration.TokensHold (onToken : Token → Prop)
    (declaration : FunctionDeclaration) : Prop :=
  ∀ statement ∈ declaration.body, statement.TokensHold onToken

namespace Evaluation

variable {onToken : Token → Prop}

/-- From a state in which the tokens of all functions have a property, a computation reports errors
only at tokens with the property, and leaves only such functions. -/
abbrev Located {α : Type} (onToken : Token → Prop) (computation : Evaluation α)
    (gives : α → Prop) : Prop :=
  Ensures (Interpreter.Admitted (FunctionDeclaration.TokensHold onToken))
    (Interruption.IsAt onToken) computation gives

/-- Values whose functions' tokens have a property. -/
abbrev LocatedValue (onToken : Token → Prop) : Value → Prop :=
  Value.Admitted (FunctionDeclaration.TokensHold onToken)

/-- Completions that return only such values. -/
abbrev LocatedCompletion (onToken : Token → Prop) : Completion → Prop :=
  Completion.Admitted (FunctionDeclaration.TokensHold onToken)

theorem isAt_ofKind {kind : Token.Kind} {known : Token.OfKind kind} {error : RuntimeError}
    (holds : onToken known.token) (token_eq : error.token = known.token)
    (kinds_eq : error.kinds = [kind]) : Interruption.IsAt onToken (.error error) := by
  refine ⟨?_, ?_⟩
  · rwa [token_eq]
  · rw [token_eq, kinds_eq, known.kind_eq]
    exact List.mem_singleton_self kind

theorem isAt_operator {Family : Type} {kindOf : Family → Token.Kind} {operator : Operator kindOf}
    {error : OperatorError} (holds : onToken operator.token)
    (kind_mem : kindOf operator.meaning ∈ error.kinds) :
    Interruption.IsAt onToken (.error (.operator operator.token error)) :=
  ⟨holds, by simpa [RuntimeError.token, RuntimeError.kinds, operator.kind_eq] using kind_mem⟩

theorem located_result {completion : Completion} (located : LocatedCompletion onToken completion) :
    Located onToken (result completion) (LocatedValue onToken) := by
  cases completion with
  | normal => exact ensures_pure trivial
  | returning value => exact ensures_pure (located value rfl)
  | breaking | continuing => exact ensures_abort trivial

/-- Evaluation with some fuel reports errors only at tokens with a property, if the tokens of what
is evaluated have it. -/
structure LocatedWithin (onToken : Token → Prop) (fuel : Nat) : Prop where
  evaluate : ∀ frame (tree : Expr), tree.TokensHold onToken →
    Located onToken (Interpreter.evaluate fuel frame tree) (LocatedValue onToken)
  invoke : ∀ callable arguments, LocatedValue onToken (.callable callable) →
    (∀ argument ∈ arguments, LocatedValue onToken argument) →
    Located onToken (Interpreter.invoke fuel callable arguments) (LocatedValue onToken)
  execute : ∀ frame (statement : Stmt), statement.TokensHold onToken →
    Located onToken (Interpreter.execute fuel frame statement) (LocatedCompletion onToken)

namespace LocatedWithin

variable {fuel : Nat}

theorem evaluate_succ (within : LocatedWithin onToken fuel) (frame : Nat) (tree : Expr)
    (holds : tree.TokensHold onToken) :
    Located onToken (Interpreter.evaluate (fuel + 1) frame tree) (LocatedValue onToken) := by
  cases tree with
  | literal value => exact ensures_pure (Value.isPlain_ofLiteral value).admitted
  | reference name => exact ensures_lookup frame (isAt_ofKind holds rfl rfl)
  | grouping inner => exact within.evaluate frame inner holds
  | unary operator operand =>
      rcases holds with ⟨operator_holds, operand_holds⟩
      apply (within.evaluate frame operand operand_holds).bind
      intro operandValue _
      exact ensures_operate (operator.meaning.fitsOperator_apply operandValue)
        fun _ kind_mem => isAt_operator operator_holds kind_mem
  | binary left operator right =>
      rcases holds with ⟨left_holds, operator_holds, right_holds⟩
      apply (within.evaluate frame left left_holds).bind
      intro leftValue _
      apply (within.evaluate frame right right_holds).bind
      intro rightValue _
      exact ensures_operate (operator.meaning.fitsOperator_apply leftValue rightValue)
        fun _ kind_mem => isAt_operator operator_holds kind_mem
  | logical left operator right =>
      rcases holds with ⟨left_holds, -, right_holds⟩
      apply (within.evaluate frame left left_holds).bind
      intro leftValue left_located
      split
      · exact ensures_pure left_located
      · exact within.evaluate frame right right_holds
  | assign name value =>
      rcases holds with ⟨name_holds, value_holds⟩
      apply (within.evaluate frame value value_holds).bind
      intro assigned assigned_located
      exact ensures_assign frame (isAt_ofKind name_holds rfl rfl) assigned_located
  | call callee paren arguments =>
      rcases holds with ⟨callee_holds, paren_holds, arguments_hold⟩
      rw [Expr.listAll_iff] at arguments_hold
      apply (within.evaluate frame callee callee_holds).bind
      intro calleeValue callee_located
      apply (ensures_mapM arguments fun argument argument_mem =>
        within.evaluate frame argument (arguments_hold argument argument_mem)).bind
      intro values values_located
      apply (ensures_resolve (isAt_ofKind paren_holds rfl rfl)
        (fun _ _ => isAt_ofKind paren_holds rfl rfl) callee_located values.length).bind
      intro callable callable_located
      exact ensures_deepen (isAt_ofKind paren_holds rfl rfl)
        (within.invoke callable values callable_located values_located)

theorem statements_located (within : LocatedWithin onToken fuel) (frame : Nat)
    {statements : List Stmt} (hold : ∀ statement ∈ statements, statement.TokensHold onToken) :
    Located onToken (inOrder (Interpreter.execute fuel frame) statements)
      (LocatedCompletion onToken) := by
  apply ensures_inOrder (by rintro value ⟨⟩)
  intro statement statement_mem
  exact within.execute frame statement (hold statement statement_mem)

theorem invoke_succ (within : LocatedWithin onToken fuel) (callable : Callable)
    (arguments : List Value) (callable_located : LocatedValue onToken (.callable callable))
    (arguments_located : ∀ argument ∈ arguments, LocatedValue onToken argument) :
    Located onToken (Interpreter.invoke (fuel + 1) callable arguments)
      (LocatedValue onToken) := by
  rcases callable with ⟨identity, function⟩
  cases function with
  | clock => exact ensures_readClock
  | declared declaration closure =>
      -- The body may come from an earlier source, so its tokens are known through the value only.
      have body_holds : declaration.TokensHold onToken := callable_located
      apply (ensures_newFrame (some closure)).bind
      intro frame _
      apply (ensures_defineAll frame declaration.parameters arguments_located).bind
      intro _ _
      apply (within.statements_located frame body_holds).bind
      intro completion located
      exact located_result located

theorem declare_located (within : LocatedWithin onToken fuel) (frame : Nat)
    {declaration : VariableDeclaration} (holds : declaration.TokensHold onToken) :
    Located onToken (declare (Interpreter.evaluate fuel frame) frame declaration)
      fun _ => True :=
  ensures_declare trivial
    (fun tree tree_mem => within.evaluate frame tree (holds.2 tree tree_mem))
    fun _ value_located => ensures_define frame declaration.name.lexeme value_located

theorem loopFrame_located (within : LocatedWithin onToken fuel) (frame : Nat)
    {initializer : ForInitializer} (holds : initializer.TokensHold onToken) :
    Located onToken (loopFrame (Interpreter.evaluate fuel) frame initializer)
      fun inner => inner = frame ∨ True := by
  apply ensures_loopFrame (ensures_newFrame (some frame))
  · rintro declaration rfl inner _
    exact within.declare_located inner holds
  · rintro tree rfl inner _
    exact within.evaluate inner tree holds

theorem loop_located (within : LocatedWithin onToken fuel) (frame : Nat)
    {condition : Option Expr} {body : Stmt} {after : Evaluation Unit}
    (condition_holds : ∀ tree ∈ condition, tree.TokensHold onToken)
    (body_holds : body.TokensHold onToken) (after_located : Located onToken after fun _ => True) :
    Located onToken
      (repeatTurn
        (turn (test (Interpreter.evaluate fuel frame) condition)
          (Interpreter.execute fuel frame body) after) fuel)
      (LocatedCompletion onToken) :=
  ensures_loop trivial (by rintro value ⟨⟩) (fun _ located => located)
    (fun tree tree_mem => within.evaluate frame tree (condition_holds tree tree_mem))
    (within.execute frame body body_holds) after_located fuel

theorem execute_succ (within : LocatedWithin onToken fuel) (frame : Nat) {statement : Stmt}
    (holds : statement.TokensHold onToken) :
    Located onToken (Interpreter.execute (fuel + 1) frame statement)
      (LocatedCompletion onToken) := by
  have normal_located : LocatedCompletion onToken .normal := by rintro value ⟨⟩
  cases holds with
  | @expression tree tree_holds =>
      exact (within.evaluate frame tree tree_holds).bind fun _ _ => ensures_pure normal_located
  | @print keyword tree keyword_holds tree_holds =>
      apply (within.evaluate frame tree tree_holds).bind
      intro printed _
      exact (ensures_print (fun _ => isAt_ofKind keyword_holds rfl rfl) printed).bind
        fun _ _ => ensures_pure normal_located
  | @sleep keyword duration keyword_holds duration_holds =>
      apply (within.evaluate frame duration duration_holds).bind
      intro milliseconds _
      exact (ensures_sleep (isAt_ofKind keyword_holds rfl rfl) milliseconds).bind
        fun _ _ => ensures_pure normal_located
  | declareVariable declaration_holds =>
      exact (within.declare_located frame declaration_holds).bind
        fun _ _ => ensures_pure normal_located
  | @declareFunction name parameters body _ _ body_holds =>
      have declared : FunctionDeclaration.TokensHold onToken ⟨name, parameters, body⟩ := body_holds
      apply (ensures_newCallable frame declared).bind
      intro function function_located
      exact (ensures_define frame name.lexeme function_located).bind
        fun _ _ => ensures_pure normal_located
  | block statements_hold =>
      apply (ensures_newFrame (some frame)).bind
      intro inner _
      exact within.statements_located inner statements_hold
  | @ifThen condition consequence condition_holds consequence_holds =>
      exact ensures_branch (within.evaluate frame condition condition_holds)
        (within.execute frame consequence consequence_holds) (ensures_pure normal_located)
  | @ifElse condition consequence alternative condition_holds consequence_holds
      alternative_holds =>
      exact ensures_branch (within.evaluate frame condition condition_holds)
        (within.execute frame consequence consequence_holds)
        (within.execute frame alternative alternative_holds)
  | @whileLoop condition body condition_holds body_holds =>
      refine within.loop_located frame ?_ body_holds (ensures_pure trivial)
      rintro tree ⟨⟩
      exact condition_holds
  | @forLoop initializer condition increment body initializer_holds condition_holds
      increment_holds body_holds =>
      apply (within.loopFrame_located frame initializer_holds).bind
      intro inner _
      apply within.loop_located inner condition_holds body_holds
      exact ensures_lastClause trivial fun tree tree_mem =>
        within.evaluate inner tree (increment_holds tree tree_mem)
  | breakLoop | continueLoop => exact ensures_pure (by rintro value ⟨⟩)
  | @returnValue value value_holds =>
      apply (ensures_orNil trivial value fun tree tree_mem =>
        within.evaluate frame tree (value_holds tree tree_mem)).bind
      intro returned returned_located
      apply ensures_pure
      rintro _ ⟨⟩
      exact returned_located

end LocatedWithin

theorem locatedWithin (onToken : Token → Prop) (fuel : Nat) : LocatedWithin onToken fuel := by
  induction fuel with
  | zero =>
      exact ⟨fun _ _ _ => ensures_abort trivial, fun _ _ _ _ => ensures_abort trivial,
        fun _ _ _ => ensures_abort trivial⟩
  | succ fuel within =>
      exact ⟨within.evaluate_succ, within.invoke_succ,
        fun frame _ holds => within.execute_succ frame holds⟩

end Evaluation

namespace Interpreter

open Evaluation

theorem located_interpret {onToken : Token → Prop} (fuel : Nat) {program : List Stmt}
    (hold : ∀ statement ∈ program, statement.TokensHold onToken) :
    Located onToken (interpret fuel program) fun _ => True :=
  ensures_interpret
    (fun statement statement_mem =>
      (locatedWithin onToken fuel).execute globals statement (hold statement statement_mem))
    fun _ _ _ => trivial

end Interpreter

end Scriptlet
