import Scriptlet.Proofs.Evaluation.CallDepth

/-!
# The limit on nested calls

Runs neither use up nor free any of the call depth, so every program starts with all of it: calls
can be nested as deep as the limit on an interpreter that has run anything before, and a call that is
too deep is one attempted with that many calls in progress in the run itself.
-/

namespace Scriptlet

open Evaluation

/-- A name is seen in the frame that binds it. -/
theorem Scopes.find_define {scopes : Scopes} {frame : Nat} (isFrame : frame < scopes.frames.size)
    (name : String) (value : Value) :
    (scopes.define frame name value).find frame name = some value := by
  have isFrame' : frame < (scopes.define frame name value).frames.size := by
    simpa [define] using isFrame
  have bound : (scopes.define frame name value).frames[frame].bindings.find name = some value := by
    simp [define, Array.getElem_modify, Bindings.find_put]
  rw [find, locate_of_bound isFrame' bound, Option.map_some]

/-- A function that declares and calls a function, and so on. -/
def nestedCalls (name : Name) (paren : Token.OfKind .rightParen) : Nat → List Stmt
  | 0 => []
  | count + 1 =>
      [.declareFunction name [] (nestedCalls name paren count),
        .expression (.call (.reference name) paren [])]

namespace Interpreter

theorem execute_declareFunction (fuel : Nat) {frame : Nat} (name : Name) (body : List Stmt)
    {state : Interpreter} (isFrame : frame < state.scopes.frames.size) :
    ∃ declared object,
      execute (fuel + 1) frame (.declareFunction name [] body) state = .ok .normal declared ∧
        declared.callDepth = state.callDepth ∧
        declared.scopes.find frame name.lexeme = some (.callable object) ∧
        object.function = .declared ⟨name, [], body⟩ frame :=
  ⟨_, _, rfl, rfl, Scopes.find_define isFrame name.lexeme _, rfl⟩

/-- The body of a function runs in a frame of its own. -/
theorem invoke_declared (fuel : Nat) {object : Callable} {name : Name} {body : List Stmt}
    {closure : Nat} (function_eq : object.function = .declared ⟨name, [], body⟩ closure)
    (state : Interpreter) :
    ∃ frame inside, frame < inside.scopes.frames.size ∧ inside.callDepth = state.callDepth ∧
      invoke (fuel + 1) object [] state
        = (inOrder (execute fuel frame) body >>= result) inside := by
  refine ⟨state.scopes.nextId, { state with scopes := state.scopes.push (some closure) }, ?_, rfl, ?_⟩
  · simp [Scopes.push, Scopes.nextId]
  · rw [invoke, function_eq]
    rfl

theorem execute_block (fuel frame : Nat) (statements : List Stmt) (state : Interpreter) :
    ∃ inner inside, inner < inside.scopes.frames.size ∧ inside.callDepth = state.callDepth ∧
      execute (fuel + 1) frame (.block statements) state
        = inOrder (execute fuel inner) statements inside := by
  refine ⟨state.scopes.nextId, { state with scopes := state.scopes.push (some frame) }, ?_, rfl, rfl⟩
  simp [Scopes.push, Scopes.nextId]

/-- The value of an expression that calls a function without parameters. -/
theorem evaluate_call {fuel frame : Nat} {name : Name} (paren : Token.OfKind .rightParen)
    {object : Callable} {value : Value} {state after : Interpreter}
    (found : state.scopes.find frame name.lexeme = some (.callable object))
    (no_parameters : object.arity = 0) (shallow : state.callDepth < maxCallDepth)
    (invoked : invoke (fuel + 1) object [] state.entered = .ok value after) :
    evaluate (fuel + 2) frame (.call (.reference name) paren []) state = .ok value after.left := by
  have callee : evaluate (fuel + 1) frame (.reference name) state
      = .ok (.callable object) state := by
    simp only [evaluate, lookup, found]
  have resolved : resolve paren (.callable object) 0 state = .ok object state := by
    simp only [resolve, no_parameters, if_true]
    rfl
  rw [evaluate, bind_of_ok callee]
  change (resolve paren (.callable object) 0 >>= fun callable =>
    deepen paren (invoke (fuel + 1) callable [])) state = _
  rw [bind_of_ok resolved, deepen_of_lt shallow, invoked]
  rfl

/-- Calls can be nested as deep as the limit leaves room for. -/
theorem inOrder_nestedCalls (name : Name) (paren : Token.OfKind .rightParen) {count fuel : Nat}
    (enough : 3 * count ≤ fuel) {frame : Nat} {state : Interpreter}
    (isFrame : frame < state.scopes.frames.size)
    (room : state.callDepth + count ≤ maxCallDepth) :
    ∃ after, inOrder (execute fuel frame) (nestedCalls name paren count) state
      = .ok .normal after := by
  induction count generalizing fuel frame state with
  | zero => exact ⟨state, rfl⟩
  | succ count ih =>
      obtain ⟨rest, rfl⟩ : ∃ rest, fuel = rest + 3 := ⟨fuel - 3, by omega⟩
      obtain ⟨declared, object, declares, depth_eq, found, function_eq⟩ :=
        execute_declareFunction (rest + 2) name (nestedCalls name paren count) isFrame
      obtain ⟨inner, inside, inner_isFrame, inside_depth_eq, invokes⟩ :=
        invoke_declared rest function_eq declared.entered
      have inside_room : inside.callDepth + count ≤ maxCallDepth := by
        simp only [inside_depth_eq, entered, depth_eq]
        omega
      obtain ⟨ended, body_ends⟩ := ih (show 3 * count ≤ rest by omega) inner_isFrame inside_room
      have invoked : invoke (rest + 1) object [] declared.entered = .ok .nil ended := by
        rw [invokes, bind_of_ok body_ends]
        rfl
      have no_parameters : object.arity = 0 := by
        rw [Callable.arity, function_eq]
        rfl
      have called := evaluate_call paren found no_parameters (by omega) invoked
      have calls : execute (rest + 3) frame (.expression (.call (.reference name) paren []))
          declared = .ok .normal ended.left := by
        rw [execute, bind_of_ok called]
        rfl
      refine ⟨ended.left, ?_⟩
      rw [nestedCalls, inOrder, bind_of_ok declares]
      change (execute (rest + 3) frame _ >>= _) declared = _
      rw [bind_of_ok calls]
      rfl

/-- A program can nest as many calls as the limit allows. -/
theorem interpret_nestedCalls (name : Name) (paren : Token.OfKind .rightParen)
    {state : Interpreter} (unused : state.callDepth = 0) {fuel : Nat}
    (enough : 3 * maxCallDepth < fuel) :
    ∃ after, interpret fuel [.block (nestedCalls name paren maxCallDepth)] state
      = .ok () after := by
  obtain ⟨rest, rfl⟩ : ∃ rest, fuel = rest + 1 := ⟨fuel - 1, by omega⟩
  obtain ⟨inner, inside, inner_isFrame, depth_eq, executes⟩ :=
    execute_block rest globals (nestedCalls name paren maxCallDepth) state
  obtain ⟨after, ends⟩ := inOrder_nestedCalls name paren
    (show 3 * maxCallDepth ≤ rest by omega) inner_isFrame (by omega)
  refine ⟨after, ?_⟩
  rw [interpret, bind_of_ok (executes.trans ends)]
  rfl

/-- Interpreters that any programs were run on, one after the other, each to its end or to a runtime
error. -/
inductive Used : Interpreter → Prop where
  | start (output : Output) (clock : Clock) : Used (.start output clock)
  | finished {before after : Interpreter} {fuel : Nat} {program : List Stmt}
      (used : Used before) (run : interpret fuel program before = .ok () after) : Used after
  | failed {before after : Interpreter} {fuel : Nat} {program : List Stmt} {error : RuntimeError}
      (used : Used before) (run : interpret fuel program before = .error (.error error) after) :
      Used after

theorem balanced_evaluate (fuel frame : Nat) (tree : Expr) {state : Interpreter}
    (within_limit : state.callDepth ≤ maxCallDepth) :
    ((Recorded.evaluate fuel frame tree).run state).Balanced state :=
  Recorded.compositional_countsCalls.evaluate fuel frame tree state within_limit

theorem balanced_execute (fuel frame : Nat) (statement : Stmt) {state : Interpreter}
    (within_limit : state.callDepth ≤ maxCallDepth) :
    ((Recorded.execute fuel frame statement).run state).Balanced state :=
  Recorded.compositional_countsCalls.execute fuel frame statement state within_limit

theorem balanced_interpret (fuel : Nat) (program : List Stmt) {state : Interpreter}
    (within_limit : state.callDepth ≤ maxCallDepth) :
    ((Recorded.interpret fuel program).run state).Balanced state :=
  Recorded.compositional_countsCalls.interpret fuel program state within_limit

theorem callDepth_interpret (fuel : Nat) (program : List Stmt) {state : Interpreter}
    (within_limit : state.callDepth ≤ maxCallDepth) :
    (Outcome.state (interpret fuel program state)).callDepth = state.callDepth := by
  rw [← Recorded.plain_interpret]
  exact (balanced_interpret fuel program within_limit).restored

theorem Used.callDepth_eq {state : Interpreter} (used : state.Used) : state.callDepth = 0 := by
  induction used with
  | start => rfl
  | @finished before after fuel program _ run ih | @failed before after fuel program _ _ run ih =>
      have within_limit : before.callDepth ≤ maxCallDepth := by omega
      have restored := callDepth_interpret fuel program within_limit
      rw [run] at restored
      exact restored.trans ih

/-- From a state without calls, a call is too deep when the run itself has as many in progress as
the limit allows. -/
theorem isOverflow_interpret_iff {state : Interpreter} (unused : state.callDepth = 0) (fuel : Nat)
    (program : List Stmt) (paren : Token.OfKind .rightParen) :
    Outcome.IsOverflow paren (interpret fuel program state) ↔
      ∃ step ∈ ((Recorded.interpret fuel program).run state).steps, ∃ object arguments,
        step.action = .attempt paren (.callable object) arguments ∧
          object.arity = arguments.length ∧ step.before.calls.length = maxCallDepth := by
  have balanced := balanced_interpret fuel program (show state.callDepth ≤ maxCallDepth by omega)
  rw [← Recorded.plain_interpret]
  refine (balanced.overflow paren).trans ?_
  have depth_eq : ∀ step ∈ ((Recorded.interpret fuel program).run state).steps,
      step.before.state.callDepth = step.before.calls.length := by
    intro step step_mem
    have counted := (balanced.counted step step_mem).before.1
    omega
  constructor
  · rintro ⟨step, step_mem, object, arguments, action_eq, fits, deep⟩
    exact ⟨step, step_mem, object, arguments, action_eq, fits, (depth_eq step step_mem) ▸ deep⟩
  · rintro ⟨step, step_mem, object, arguments, action_eq, fits, deep⟩
    exact ⟨step, step_mem, object, arguments, action_eq, fits, (depth_eq step step_mem).trans deep⟩

/-- Evaluation leaves the call depth as it was, however it ends; at each step in between it is the
depth at the start plus the calls in progress, within the limit; and a call is too deep exactly when
one that callee and arguments allow is attempted at the limit. So an interpreter that programs were
run on has the whole limit for the next one. -/
theorem callDepth_balanced :
    (∀ (fuel frame : Nat) (tree : Expr) (state : Interpreter), state.callDepth ≤ maxCallDepth →
      ((Recorded.evaluate fuel frame tree).run state).outcome = evaluate fuel frame tree state ∧
        ((Recorded.evaluate fuel frame tree).run state).Balanced state) ∧
    (∀ (fuel frame : Nat) (statement : Stmt) (state : Interpreter),
      state.callDepth ≤ maxCallDepth →
      ((Recorded.execute fuel frame statement).run state).outcome
          = execute fuel frame statement state ∧
        ((Recorded.execute fuel frame statement).run state).Balanced state) ∧
    (∀ state : Interpreter, state.Used → state.callDepth = 0 ∧
      (∀ (fuel : Nat) (program : List Stmt) (paren : Token.OfKind .rightParen),
        Outcome.IsOverflow paren (interpret fuel program state) ↔
          ∃ step ∈ ((Recorded.interpret fuel program).run state).steps, ∃ object arguments,
            step.action = .attempt paren (.callable object) arguments ∧
              object.arity = arguments.length ∧ step.before.calls.length = maxCallDepth) ∧
      (∀ (name : Name) (paren : Token.OfKind .rightParen) (fuel : Nat), 3 * maxCallDepth < fuel →
        ∃ after, interpret fuel [.block (nestedCalls name paren maxCallDepth)] state
          = .ok () after)) := by
  refine ⟨?_, ?_, ?_⟩
  · intro fuel frame tree state within_limit
    exact ⟨congrFun (Recorded.plain_evaluate fuel frame tree) state,
      balanced_evaluate fuel frame tree within_limit⟩
  · intro fuel frame statement state within_limit
    exact ⟨congrFun (Recorded.plain_execute fuel frame statement) state,
      balanced_execute fuel frame statement within_limit⟩
  · intro state used
    have unused := used.callDepth_eq
    exact ⟨unused, isOverflow_interpret_iff unused,
      fun name paren _ enough => interpret_nestedCalls name paren unused enough⟩

/-- A new interpreter nests calls up to the limit, and a call of `nil` fails at the limit without
touching it. -/
theorem callDepth_balanced_start :
    (∃ after, interpret 3073
      [.block (nestedCalls ⟨⟨.identifier, "f", none, 1⟩, rfl⟩ ⟨⟨.rightParen, ")", none, 1⟩, rfl⟩
        maxCallDepth)]
      (.start .unlimited (.ofReadings fun _ => 0)) = .ok () after) ∧
    (Outcome.state (evaluate 2 globals
      (.call (.literal .nil) ⟨⟨.rightParen, ")", none, 1⟩, rfl⟩ [])
      { Interpreter.start .unlimited (.ofReadings fun _ => 0) with
        callDepth := 1024 })).callDepth = 1024 := by
  refine ⟨(callDepth_balanced.2.2 _ (.start _ _)).2.2 _ _ 3073 (by decide), ?_⟩
  have recorded := callDepth_balanced.1 2 globals
    (.call (.literal .nil) ⟨⟨.rightParen, ")", none, 1⟩, rfl⟩ [])
    { Interpreter.start .unlimited (.ofReadings fun _ => 0) with callDepth := 1024 }
    (Nat.le_refl 1024)
  rw [← recorded.1]
  exact recorded.2.restored

end Interpreter

end Scriptlet
