import Scriptlet.Proofs.Evaluation.Correspondence
import Scriptlet.Proofs.Grammar.Declarations

/-!
# Evaluation keeps what evolves

Two runs of one program make frames and objects as they go, and which of them belong together is
settled when they are made. So what belongs together is said for each stage of the runs: what
belongs together at one stage does so at every later one. If the steps on frames and objects lead to
a later stage, so does all of evaluation: in frames that belong together a tree has the same outcome
in both runs, apart from which objects and frames they are.

Frames can belong together without being made by the same step. Nothing is declared in such frames:
declarations need partners.
-/

namespace Scriptlet

/-- Functions of the same code, declared in corresponding frames. -/
inductive Function.Corresponds (frames : Nat → Nat → Prop) : Function → Function → Prop where
  | clock : Corresponds frames .clock .clock
  | declared (declaration : FunctionDeclaration) {closure other : Nat}
      (closures_match : frames closure other) :
      Corresponds frames (.declared declaration closure) (.declared declaration other)

theorem Value.Alike.mono {objects weaker : Callable → Callable → Prop} {left right : Value}
    (alike : left.Alike objects right)
    (weaken : ∀ left right, objects left right → weaker left right) : left.Alike weaker right := by
  cases alike with
  | plain isPlain => exact .plain isPlain
  | callable corresponding => exact .callable (weaken _ _ corresponding)

/-- What belongs together in two runs of one program, at each stage of the runs. -/
structure Evolution (Stage : Type) where
  before : Stage → Stage → Prop
  states : Stage → Interpreter → Interpreter → Prop
  objects : Stage → Callable → Callable → Prop
  frames : Stage → Nat → Nat → Prop
  /-- Frames that belong together and in which declarations can be made. -/
  partners : Stage → Nat → Nat → Prop
  before_refl : ∀ stage, before stage stage
  before_trans : ∀ {first second third}, before first second → before second third →
    before first third
  objects_later : ∀ {stage later}, before stage later → ∀ left right,
    objects stage left right → objects later left right
  frames_later : ∀ {stage later}, before stage later → ∀ {frame other},
    frames stage frame other → frames later frame other
  partners_later : ∀ {stage later}, before stage later → ∀ {frame other},
    partners stage frame other → partners later frame other
  frames_of_partners : ∀ {stage frame other}, partners stage frame other →
    frames stage frame other

namespace Evolution

open Evaluation

variable {Stage : Type} {α β γ δ : Type}

/-- Values that correspond at a stage. -/
abbrev Values (evolution : Evolution Stage) (stage : Stage) : Value → Value → Prop :=
  Value.Alike (evolution.objects stage)

/-- Completions that correspond at a stage. -/
abbrev Completions (evolution : Evolution Stage) (stage : Stage) :
    Completion → Completion → Prop :=
  CompletionsMatch (evolution.Values stage)

/-- From a stage on, states that belong together lead to outcomes that belong together at a later
stage, and errors are the same. -/
def InStep (evolution : Evolution Stage) (stage : Stage) (left : Evaluation α)
    (right : Evaluation β) (gives : Stage → α → β → Prop) : Prop :=
  ∀ now, evolution.before stage now → ∀ state other, evolution.states now state other →
    ∃ later, evolution.before now later ∧
      OutcomesMatch (evolution.states later) Eq (gives later) (left state) (right other)

section

variable {evolution : Evolution Stage} {stage : Stage}

theorem values_later {later : Stage} (isLater : evolution.before stage later) {left right : Value}
    (alike : evolution.Values stage left right) : evolution.Values later left right :=
  alike.mono (evolution.objects_later isLater)

theorem InStep.later {left : Evaluation α} {right : Evaluation β} {gives : Stage → α → β → Prop}
    (inStep : evolution.InStep stage left right gives) {later : Stage}
    (isLater : evolution.before stage later) :
    evolution.InStep later left right gives :=
  fun now isNow => inStep now (evolution.before_trans isLater isNow)

theorem InStep.bind {left : Evaluation α} {right : Evaluation β} {leftNext : α → Evaluation γ}
    {rightNext : β → Evaluation δ} {gives : Stage → α → β → Prop} {then_ : Stage → γ → δ → Prop}
    (first : evolution.InStep stage left right gives)
    (second : ∀ later, evolution.before stage later → ∀ value other, gives later value other →
      evolution.InStep later (leftNext value) (rightNext other) then_) :
    evolution.InStep stage (left >>= leftNext) (right >>= rightNext) then_ := by
  intro now isNow state other related
  change ∃ later, evolution.before now later ∧
    OutcomesMatch (evolution.states later) Eq (then_ later) (EStateM.bind left leftNext state)
      (EStateM.bind right rightNext other)
  obtain ⟨middle, isMiddle, outcomes⟩ := first now isNow state other related
  unfold EStateM.bind
  revert outcomes
  generalize left state = outcome, right other = otherOutcome
  intro outcomes
  cases outcomes with
  | ok values_match related =>
      obtain ⟨last, isLast, outcomes⟩ :=
        second middle (evolution.before_trans isNow isMiddle) _ _ values_match middle
          (evolution.before_refl middle) _ _ related
      exact ⟨last, evolution.before_trans isMiddle isLast, outcomes⟩
  | error stops_same related => exact ⟨middle, isMiddle, .error stops_same related⟩

/-- Computations in lockstep stay at their stage. -/
theorem inStep_of_lockstep {left : Evaluation α} {right : Evaluation β}
    {gives : Stage → α → β → Prop}
    (lockstep : ∀ now, evolution.before stage now →
      Lockstep (evolution.states now) Eq left right (gives now)) :
    evolution.InStep stage left right gives :=
  fun now isNow state other related =>
    ⟨now, evolution.before_refl now, lockstep now isNow state other related⟩

theorem inStep_pure {value : α} {other : β} {gives : Stage → α → β → Prop}
    (values_match : ∀ now, evolution.before stage now → gives now value other) :
    evolution.InStep stage (pure value) (pure other) gives :=
  inStep_of_lockstep fun now isNow => lockstep_pure (values_match now isNow)

theorem inStep_abort {reason : Abort} {gives : Stage → α → β → Prop} :
    evolution.InStep stage (abort reason) (abort reason) gives :=
  inStep_of_lockstep fun _ _ => lockstep_abort rfl

theorem inStep_mapM {action otherAction : α → Evaluation Value} (inputs : List α)
    (each : ∀ input, evolution.InStep stage (action input) (otherAction input) evolution.Values) :
    evolution.InStep stage (inputs.mapM action) (inputs.mapM otherAction)
      fun now => List.Forall₂ (evolution.Values now) := by
  induction inputs with
  | nil => exact inStep_pure fun _ _ => .nil
  | cons input inputs ih =>
      rw [List.mapM_cons, List.mapM_cons]
      apply (each input).bind
      intro middle isMiddle value other alike
      apply (ih.later isMiddle).bind
      intro last isLast values others values_alike
      apply inStep_pure
      intro now isNow
      refine .cons (values_later (evolution.before_trans isLast isNow) alike) ?_
      exact values_alike.imp fun _ _ => values_later isNow

theorem completions_later {later : Stage} (isLater : evolution.before stage later)
    {completion other : Completion}
    (completions_match : evolution.Completions stage completion other) :
    evolution.Completions later completion other := by
  cases completions_match with
  | normal => exact .normal
  | breaking => exact .breaking
  | continuing => exact .continuing
  | returning alike => exact .returning (values_later isLater alike)

theorem inStep_completion {completion other : Completion}
    (completions_match : evolution.Completions stage completion other) :
    evolution.InStep stage (pure completion) (pure other) evolution.Completions :=
  inStep_pure fun _ isNow => completions_later isNow completions_match

theorem inStep_inOrder {run otherRun : Stmt → Evaluation Completion} (statements : List Stmt)
    (each : ∀ statement,
      evolution.InStep stage (run statement) (otherRun statement) evolution.Completions) :
    evolution.InStep stage (inOrder run statements) (inOrder otherRun statements)
      evolution.Completions := by
  induction statements with
  | nil => exact inStep_completion .normal
  | cons statement statements ih =>
      apply (each statement).bind
      intro middle isMiddle completion other completions_match
      cases completions_match with
      | normal => exact ih.later isMiddle
      | breaking => exact inStep_completion .breaking
      | continuing => exact inStep_completion .continuing
      | returning alike => exact inStep_completion (.returning alike)

theorem inStep_turn {condition otherCondition : Evaluation Bool}
    {body otherBody : Evaluation Completion} {after otherAfter : Evaluation Unit}
    (conditions : evolution.InStep stage condition otherCondition fun _ => Eq)
    (bodies : evolution.InStep stage body otherBody evolution.Completions)
    (afters : evolution.InStep stage after otherAfter fun _ _ _ => True) :
    evolution.InStep stage (turn condition body after) (turn otherCondition otherBody otherAfter)
      fun now => Option.Rel (evolution.Completions now) := by
  apply conditions.bind
  rintro middle isMiddle holds _ rfl
  cases holds with
  | false => exact inStep_pure fun _ _ => .some .normal
  | true =>
      apply (bodies.later isMiddle).bind
      intro next isNext completion other completions_match
      cases completions_match with
      | normal | continuing =>
          exact ((afters.later isMiddle).later isNext).bind
            fun _ _ _ _ _ => inStep_pure fun _ _ => .none
      | breaking => exact inStep_pure fun _ _ => .some .normal
      | returning alike =>
          exact inStep_pure fun _ isNow => .some (.returning (values_later isNow alike))

theorem inStep_repeatTurn {turn otherTurn : Evaluation (Option Completion)}
    (turns : evolution.InStep stage turn otherTurn
      fun now => Option.Rel (evolution.Completions now)) (fuel : Nat) :
    evolution.InStep stage (repeatTurn turn fuel) (repeatTurn otherTurn fuel)
      evolution.Completions := by
  induction fuel with
  | zero => exact inStep_abort
  | succ fuel ih =>
      apply turns.bind
      intro middle isMiddle found other found_match
      cases found_match with
      | none => exact ih.later isMiddle
      | some completions_match => exact inStep_completion completions_match

end

/-- States and objects that belong together cannot be told apart from outside, and the steps on
frames and objects keep together what belongs together. -/
structure IsKept (evolution : Evolution Stage) : Prop where
  output_eq : ∀ {stage left right}, evolution.states stage left right → left.output = right.output
  clock_eq : ∀ {stage left right}, evolution.states stage left right → left.clock = right.clock
  callDepth_eq : ∀ {stage left right}, evolution.states stage left right →
    left.callDepth = right.callDepth
  withOutput : ∀ {stage left right}, evolution.states stage left right → ∀ output,
    evolution.states stage { left with output } { right with output }
  withClock : ∀ {stage left right}, evolution.states stage left right → ∀ clock,
    evolution.states stage { left with clock } { right with clock }
  withCallDepth : ∀ {stage left right}, evolution.states stage left right → ∀ callDepth,
    evolution.states stage { left with callDepth } { right with callDepth }
  function_corresponds : ∀ {stage left right}, evolution.objects stage left right →
    left.function.Corresponds (evolution.frames stage) right.function
  identity_iff : ∀ {stage left right left' right'}, evolution.objects stage left right →
    evolution.objects stage left' right' →
      (left.identity = left'.identity ↔ right.identity = right'.identity)
  lookup : ∀ {stage frame other}, evolution.frames stage frame other → ∀ name,
    Lockstep (evolution.states stage) Eq (lookup frame name) (lookup other name)
      (evolution.Values stage)
  assign : ∀ {stage frame other}, evolution.frames stage frame other → ∀ name {left right},
    evolution.Values stage left right →
      Lockstep (evolution.states stage) Eq (assign frame name left) (assign other name right)
        (evolution.Values stage)
  define : ∀ {stage frame other}, evolution.partners stage frame other → ∀ name {left right},
    evolution.Values stage left right →
      Lockstep (evolution.states stage) Eq (define frame name left) (define other name right)
        fun _ _ => True
  newFrame : ∀ {stage frame other}, evolution.frames stage frame other →
    evolution.InStep stage (newFrame (some frame)) (newFrame (some other)) evolution.partners
  newCallable : ∀ {stage frame other}, evolution.frames stage frame other → ∀ declaration,
    Lockstep (evolution.states stage) Eq (newCallable (.declared declaration frame))
      (newCallable (.declared declaration other)) (evolution.Values stage)

namespace IsKept

variable {evolution : Evolution Stage} {stage : Stage}

theorem indistinguishable (kept : evolution.IsKept) (stage : Stage) :
    Callable.Indistinguishable (evolution.objects stage) where
  arity_eq {left right} corresponding := by
    have functions := kept.function_corresponds corresponding
    cases left
    cases right
    cases functions <;> rfl
  text_eq {left right} corresponding := by
    have functions := kept.function_corresponds corresponding
    cases left
    cases right
    cases functions <;> rfl
  identity_iff := kept.identity_iff

theorem print (kept : evolution.IsKept) (keyword : Token.OfKind .printWord) {left right : Value}
    (alike : evolution.Values stage left right) :
    evolution.InStep stage (print keyword left) (print keyword right) fun _ _ _ => True := by
  apply inStep_of_lockstep
  intro now _ state other related
  simp only [Evaluation.print, alike.text_eq (kept.indistinguishable stage),
    kept.output_eq related]
  split
  · exact .ok trivial (kept.withOutput related _)
  · exact .error rfl (kept.withOutput related _)

theorem readClock (kept : evolution.IsKept) :
    evolution.InStep stage readClock readClock evolution.Values := by
  apply inStep_of_lockstep
  intro now _ state other related
  simp only [Evaluation.readClock, kept.clock_eq related]
  exact .ok (.plain trivial) (kept.withClock related _)

theorem sleep (kept : evolution.IsKept) (keyword : Token.OfKind .sleepWord) {left right : Value}
    (alike : evolution.Values stage left right) :
    evolution.InStep stage (sleep keyword left) (sleep keyword right) fun _ _ _ => True := by
  apply inStep_of_lockstep
  intro now _
  cases alike with
  | callable => exact lockstep_fail rfl
  | plain =>
      cases left with
      | number milliseconds =>
          apply lockstep_modify
          intro state other related
          rw [kept.clock_eq related]
          exact kept.withClock related _
      | nil | boolean | string | callable => exact lockstep_fail rfl

theorem operate (token : Token) {kind : Token.Kind} {result : Except OperatorError Value}
    (fits : FitsOperator kind result) :
    evolution.InStep stage (operate token result) (operate token result) evolution.Values :=
  inStep_of_lockstep fun _ _ => lockstep_operate fits fun _ => rfl

theorem resolve (kept : evolution.IsKept) (paren : Token.OfKind .rightParen)
    {callee other : Value} (alike : evolution.Values stage callee other) (count : Nat) :
    evolution.InStep stage (resolve paren callee count) (resolve paren other count)
      evolution.objects :=
  inStep_of_lockstep fun now isNow => lockstep_resolve (kept.indistinguishable now)
    (values_later isNow alike) count rfl fun _ _ => rfl

theorem deepen (kept : evolution.IsKept) (paren : Token.OfKind .rightParen)
    {body : Evaluation α} {otherBody : Evaluation β} {gives : Stage → α → β → Prop}
    (bodies : evolution.InStep stage body otherBody gives) :
    evolution.InStep stage (deepen paren body) (deepen paren otherBody) gives := by
  intro now isNow state other related
  simp only [Evaluation.deepen, kept.callDepth_eq related]
  split
  · exact ⟨now, evolution.before_refl now, .error rfl related⟩
  · obtain ⟨later, isLater, outcomes⟩ :=
      bodies now isNow _ _ (kept.withCallDepth related (other.callDepth + 1))
    refine ⟨later, isLater, ?_⟩
    revert outcomes
    generalize body _ = outcome, otherBody _ = otherOutcome
    intro outcomes
    cases outcomes with
    | ok values_match related =>
        refine .ok values_match ?_
        rw [kept.callDepth_eq related]
        exact kept.withCallDepth related _
    | error stops_same related =>
        refine .error stops_same ?_
        rw [kept.callDepth_eq related]
        exact kept.withCallDepth related _

theorem result {completion other : Completion}
    (completions_match : evolution.Completions stage completion other) :
    evolution.InStep stage (result completion) (result other) evolution.Values := by
  cases completions_match with
  | normal => exact inStep_pure fun _ _ => .plain trivial
  | returning alike => exact inStep_pure fun _ isNow => values_later isNow alike
  | breaking | continuing => exact inStep_abort

theorem defineIn (kept : evolution.IsKept) {frame other : Nat}
    (partners : evolution.partners stage frame other) (name : String) {left right : Value}
    (alike : evolution.Values stage left right) :
    evolution.InStep stage (Evaluation.define frame name left) (Evaluation.define other name right)
      fun _ _ _ => True :=
  inStep_of_lockstep fun _ isNow =>
    kept.define (evolution.partners_later isNow partners) name (values_later isNow alike)

theorem defineAll (kept : evolution.IsKept) {frame other : Nat}
    (partners : evolution.partners stage frame other) (names : List Name)
    {values others : List Value} (alike : List.Forall₂ (evolution.Values stage) values others) :
    evolution.InStep stage (defineAll frame names values) (defineAll other names others)
      fun _ _ _ => True := by
  induction alike generalizing names with
  | nil =>
      simp only [Evaluation.defineAll, List.zip_nil_right]
      exact inStep_pure fun _ _ => trivial
  | cons value_alike _ ih =>
      cases names with
      | nil => exact inStep_pure fun _ _ => trivial
      | cons name names =>
          exact (kept.defineIn partners name.lexeme value_alike).bind
            fun _ isLater _ _ _ => (ih names).later isLater

end IsKept

/-- Evaluation with some fuel keeps together what belongs together. A statement that runs in frames
that are no partners has nothing to declare there. -/
structure KeptWithin (evolution : Evolution Stage) (fuel : Nat) : Prop where
  evaluate : ∀ {stage frame other}, evolution.frames stage frame other → ∀ tree,
    evolution.InStep stage (Interpreter.evaluate fuel frame tree)
      (Interpreter.evaluate fuel other tree) evolution.Values
  invoke : ∀ {stage callable other}, evolution.objects stage callable other →
    ∀ {arguments others}, List.Forall₂ (evolution.Values stage) arguments others →
      evolution.InStep stage (Interpreter.invoke fuel callable arguments)
        (Interpreter.invoke fuel other others) evolution.Values
  execute : ∀ {stage frame other}, evolution.frames stage frame other → ∀ statement : Stmt,
    evolution.partners stage frame other ∨ statement.DeclaresNothing →
      evolution.InStep stage (Interpreter.execute fuel frame statement)
        (Interpreter.execute fuel other statement) evolution.Completions

namespace KeptWithin

variable {evolution : Evolution Stage} {stage : Stage} {fuel frame other : Nat}

theorem evaluate_succ (within : KeptWithin evolution fuel) (kept : evolution.IsKept)
    (frames_match : evolution.frames stage frame other) (tree : Expr) :
    evolution.InStep stage (Interpreter.evaluate (fuel + 1) frame tree)
      (Interpreter.evaluate (fuel + 1) other tree) evolution.Values := by
  cases tree with
  | literal value => exact inStep_pure fun _ _ => .plain (Value.isPlain_ofLiteral value)
  | reference name =>
      exact inStep_of_lockstep fun _ isNow =>
        kept.lookup (evolution.frames_later isNow frames_match) name
  | grouping inner => exact within.evaluate frames_match inner
  | unary operator operand =>
      apply (within.evaluate frames_match operand).bind
      intro later _ value otherValue alike
      rw [operator.meaning.apply_eq_of_alike alike]
      exact IsKept.operate operator.token (operator.meaning.fitsOperator_apply otherValue)
  | binary left operator right =>
      apply (within.evaluate frames_match left).bind
      intro middle isMiddle leftValue otherLeft left_alike
      apply (within.evaluate (evolution.frames_later isMiddle frames_match) right).bind
      intro later isLater rightValue otherRight right_alike
      rw [operator.meaning.apply_eq_of_alike (kept.indistinguishable later)
        (values_later isLater left_alike) right_alike]
      exact IsKept.operate operator.token
        (operator.meaning.fitsOperator_apply otherLeft otherRight)
  | logical left operator right =>
      apply (within.evaluate frames_match left).bind
      intro later isLater leftValue otherLeft left_alike
      rw [operator.meaning.decidedBy_eq_of_alike left_alike]
      split
      · exact inStep_pure fun _ isNow => values_later isNow left_alike
      · exact within.evaluate (evolution.frames_later isLater frames_match) right
  | assign name value =>
      apply (within.evaluate frames_match value).bind
      intro later isLater assigned otherAssigned alike
      exact inStep_of_lockstep fun _ isNow =>
        kept.assign (evolution.frames_later (evolution.before_trans isLater isNow) frames_match)
          name (values_later isNow alike)
  | call callee paren arguments =>
      apply (within.evaluate frames_match callee).bind
      intro middle isMiddle calleeValue otherCallee callee_alike
      apply (inStep_mapM arguments
        (within.evaluate (evolution.frames_later isMiddle frames_match))).bind
      intro next isNext values others values_alike
      rw [← values_alike.length_eq]
      apply (kept.resolve paren (values_later isNext callee_alike) values.length).bind
      intro later isLater callable otherCallable corresponding
      exact kept.deepen paren (within.invoke corresponding
        (values_alike.imp fun _ _ => values_later isLater))

theorem statements_kept (within : KeptWithin evolution fuel)
    (partners : evolution.partners stage frame other) (statements : List Stmt) :
    evolution.InStep stage (inOrder (Interpreter.execute fuel frame) statements)
      (inOrder (Interpreter.execute fuel other) statements) evolution.Completions :=
  inStep_inOrder statements fun statement =>
    within.execute (evolution.frames_of_partners partners) statement (.inl partners)

theorem invoke_succ (within : KeptWithin evolution fuel) (kept : evolution.IsKept)
    {callable otherCallable : Callable}
    (corresponding : evolution.objects stage callable otherCallable)
    {arguments others : List Value}
    (alike : List.Forall₂ (evolution.Values stage) arguments others) :
    evolution.InStep stage (Interpreter.invoke (fuel + 1) callable arguments)
      (Interpreter.invoke (fuel + 1) otherCallable others) evolution.Values := by
  have functions := kept.function_corresponds corresponding
  rcases callable with ⟨identity, function⟩
  rcases otherCallable with ⟨otherIdentity, otherFunction⟩
  cases functions with
  | clock => exact kept.readClock
  | declared declaration closures_match =>
      apply (kept.newFrame closures_match).bind
      intro middle isMiddle inner otherInner partners
      apply (kept.defineAll partners declaration.parameters
        (alike.imp fun _ _ => values_later isMiddle)).bind
      intro next isNext _ _ _
      apply (within.statements_kept (evolution.partners_later isNext partners)
        declaration.body).bind
      intro later isLater completion otherCompletion completions_match
      exact IsKept.result completions_match

theorem orNil_kept (within : KeptWithin evolution fuel)
    (frames_match : evolution.frames stage frame other) (tree : Option Expr) :
    evolution.InStep stage (orNil (Interpreter.evaluate fuel frame) tree)
      (orNil (Interpreter.evaluate fuel other) tree) evolution.Values := by
  cases tree with
  | none => exact inStep_pure fun _ _ => .plain trivial
  | some inner => exact within.evaluate frames_match inner

theorem test_kept (within : KeptWithin evolution fuel)
    (frames_match : evolution.frames stage frame other) (condition : Option Expr) :
    evolution.InStep stage (test (Interpreter.evaluate fuel frame) condition)
      (test (Interpreter.evaluate fuel other) condition) fun _ => Eq := by
  cases condition with
  | none => exact inStep_pure fun _ _ => rfl
  | some inner =>
      exact (within.evaluate frames_match inner).bind
        fun _ _ _ _ alike => inStep_pure fun _ _ => alike.isTruthy_eq

theorem declare_kept (within : KeptWithin evolution fuel) (kept : evolution.IsKept)
    (partners : evolution.partners stage frame other) (declaration : VariableDeclaration) :
    evolution.InStep stage (declare (Interpreter.evaluate fuel frame) frame declaration)
      (declare (Interpreter.evaluate fuel other) other declaration) fun _ _ _ => True := by
  apply (within.orNil_kept (evolution.frames_of_partners partners) declaration.initializer).bind
  intro later isLater value otherValue alike
  exact kept.defineIn (evolution.partners_later isLater partners) declaration.name.lexeme alike

/-- The frame of a first clause has a partner. -/
theorem loopFrame_kept (within : KeptWithin evolution fuel) (kept : evolution.IsKept)
    (frames_match : evolution.frames stage frame other) (body : Stmt)
    (declares : evolution.partners stage frame other ∨ body.DeclaresNothing)
    (initializer : ForInitializer) :
    evolution.InStep stage (loopFrame (Interpreter.evaluate fuel) frame initializer)
      (loopFrame (Interpreter.evaluate fuel) other initializer)
      fun now inner otherInner => evolution.frames now inner otherInner ∧
        (evolution.partners now inner otherInner ∨ body.DeclaresNothing) := by
  cases initializer with
  | absent =>
      exact inStep_pure fun _ isNow => ⟨evolution.frames_later isNow frames_match,
        declares.imp_left (evolution.partners_later isNow)⟩
  | declaration declaration =>
      apply (kept.newFrame frames_match).bind
      intro middle isMiddle inner otherInner partners
      apply (within.declare_kept kept partners declaration).bind
      intro later isLater _ _ _
      apply inStep_pure
      intro now isNow
      have partners_now := evolution.partners_later (evolution.before_trans isLater isNow) partners
      exact ⟨evolution.frames_of_partners partners_now, .inl partners_now⟩
  | expression tree =>
      apply (kept.newFrame frames_match).bind
      intro middle isMiddle inner otherInner partners
      apply (within.evaluate (evolution.frames_of_partners partners) tree).bind
      intro later isLater _ _ _
      apply inStep_pure
      intro now isNow
      have partners_now := evolution.partners_later (evolution.before_trans isLater isNow) partners
      exact ⟨evolution.frames_of_partners partners_now, .inl partners_now⟩

theorem loop_kept (within : KeptWithin evolution fuel)
    (frames_match : evolution.frames stage frame other) (condition : Option Expr) (body : Stmt)
    (declares : evolution.partners stage frame other ∨ body.DeclaresNothing)
    {after otherAfter : Evaluation Unit}
    (afters : evolution.InStep stage after otherAfter fun _ _ _ => True) :
    evolution.InStep stage
      (repeatTurn
        (turn (test (Interpreter.evaluate fuel frame) condition)
          (Interpreter.execute fuel frame body) after) fuel)
      (repeatTurn
        (turn (test (Interpreter.evaluate fuel other) condition)
          (Interpreter.execute fuel other body) otherAfter) fuel)
      evolution.Completions :=
  inStep_repeatTurn
    (inStep_turn (within.test_kept frames_match condition)
      (within.execute frames_match body declares) afters) fuel

theorem execute_succ (within : KeptWithin evolution fuel) (kept : evolution.IsKept)
    (frames_match : evolution.frames stage frame other) (statement : Stmt)
    (declares : evolution.partners stage frame other ∨ statement.DeclaresNothing) :
    evolution.InStep stage (Interpreter.execute (fuel + 1) frame statement)
      (Interpreter.execute (fuel + 1) other statement) evolution.Completions := by
  cases statement with
  | expression tree =>
      exact (within.evaluate frames_match tree).bind fun _ _ _ _ _ => inStep_completion .normal
  | print keyword tree =>
      apply (within.evaluate frames_match tree).bind
      intro later _ printed otherPrinted alike
      exact (kept.print keyword alike).bind fun _ _ _ _ _ => inStep_completion .normal
  | sleep keyword duration =>
      apply (within.evaluate frames_match duration).bind
      intro later _ milliseconds otherMilliseconds alike
      exact (kept.sleep keyword alike).bind fun _ _ _ _ _ => inStep_completion .normal
  | declareVariable declaration =>
      obtain partners := declares.resolve_right id
      exact (within.declare_kept kept partners declaration).bind
        fun _ _ _ _ _ => inStep_completion .normal
  | declareFunction name parameters body =>
      have partners := declares.resolve_right id
      have made : evolution.InStep stage (newCallable (.declared ⟨name, parameters, body⟩ frame))
          (newCallable (.declared ⟨name, parameters, body⟩ other)) evolution.Values :=
        inStep_of_lockstep fun _ isNow =>
          kept.newCallable (evolution.frames_later isNow frames_match) ⟨name, parameters, body⟩
      apply made.bind
      intro later isLater function otherFunction alike
      exact (kept.defineIn (evolution.partners_later isLater partners) name.lexeme alike).bind
        fun _ _ _ _ _ => inStep_completion .normal
  | block statements =>
      apply (kept.newFrame frames_match).bind
      intro later _ inner otherInner partners
      exact within.statements_kept partners statements
  | ifThen condition consequence =>
      apply (within.test_kept frames_match (some condition)).bind
      rintro later isLater holds _ rfl
      cases holds with
      | true =>
          exact (within.execute frames_match consequence declares).later isLater
      | false => exact inStep_completion .normal
  | ifElse condition consequence alternative =>
      apply (within.test_kept frames_match (some condition)).bind
      rintro later isLater holds _ rfl
      cases holds with
      | true =>
          exact (within.execute frames_match consequence (declares.imp_right And.left)).later
            isLater
      | false =>
          exact (within.execute frames_match alternative (declares.imp_right And.right)).later
            isLater
  | whileLoop condition body =>
      exact within.loop_kept frames_match (some condition) body declares
        (inStep_pure fun _ _ => trivial)
  | forLoop initializer condition increment body =>
      apply (within.loopFrame_kept kept frames_match body declares initializer).bind
      rintro later _ inner otherInner ⟨inner_match, inner_declares⟩
      apply within.loop_kept inner_match condition body inner_declares
      exact (within.orNil_kept inner_match increment).bind
        fun _ _ _ _ _ => inStep_pure fun _ _ => trivial
  | breakLoop => exact inStep_completion .breaking
  | continueLoop => exact inStep_completion .continuing
  | returnValue value =>
      apply (within.orNil_kept frames_match value).bind
      intro later _ returned otherReturned alike
      exact inStep_completion (.returning alike)

end KeptWithin

/-- What its steps keep together, evaluation keeps together. -/
theorem IsKept.within {evolution : Evolution Stage} (kept : evolution.IsKept) (fuel : Nat) :
    KeptWithin evolution fuel := by
  -- The same fuel is used on both sides, so that both are exhausted at the same point.
  induction fuel with
  | zero =>
      exact ⟨fun _ _ => inStep_abort, fun _ _ _ _ => inStep_abort, fun _ _ _ => inStep_abort⟩
  | succ fuel within =>
      exact ⟨within.evaluate_succ kept, within.invoke_succ kept, within.execute_succ kept⟩

end Evolution

end Scriptlet
