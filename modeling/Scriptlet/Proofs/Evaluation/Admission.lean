import Scriptlet.Proofs.Evaluation.Ensures
import Scriptlet.Proofs.Evaluation.Operators

/-!
# Which functions a state holds

Functions outlive the source that declares them: they stay bound in frames and can be called by a
later source. What is to hold of every function that a run can ever call is therefore an invariant
of all values in all frames. Here a condition on function declarations is carried from declarations
to values, frames and interpreters, and through each step on them.
-/

namespace Scriptlet

/-- A value is no declared function, or one that a condition admits. -/
def Value.Admitted (admits : FunctionDeclaration → Prop) : Value → Prop
  | .callable ⟨_, .declared declaration _⟩ => admits declaration
  | _ => True

/-- A completion returns only an admitted value. -/
def Completion.Admitted (admits : FunctionDeclaration → Prop) (completion : Completion) : Prop :=
  ∀ value, completion = .returning value → value.Admitted admits

/-- Every bound value is admitted. -/
def Scopes.Admitted (admits : FunctionDeclaration → Prop) (scopes : Scopes) : Prop :=
  ∀ frame ∈ scopes.frames, ∀ binding ∈ frame.bindings, binding.2.Admitted admits

/-- Every bound value is admitted. -/
def Interpreter.Admitted (admits : FunctionDeclaration → Prop) (state : Interpreter) : Prop :=
  state.scopes.Admitted admits

variable {admits : FunctionDeclaration → Prop}

theorem Value.IsPlain.admitted {value : Value} (isPlain : value.IsPlain) :
    value.Admitted admits := by
  cases value with
  | callable => cases isPlain
  | nil | boolean | number | string => trivial

theorem Bindings.admitted_of_find {bindings : Bindings} {name : String} {value : Value}
    (all : ∀ binding ∈ bindings, binding.2.Admitted admits)
    (found : bindings.find name = some value) : value.Admitted admits := by
  induction bindings with
  | nil => cases found
  | cons binding others ih =>
      rw [List.forall_mem_cons] at all
      rw [Bindings.find] at found
      split at found
      · cases found
        exact all.1
      · exact ih all.2 found

theorem Bindings.admitted_put {bindings : Bindings} {name : String} {value : Value}
    (all : ∀ binding ∈ bindings, binding.2.Admitted admits) (admitted : value.Admitted admits) :
    ∀ binding ∈ bindings.put name value, binding.2.Admitted admits := by
  induction bindings with
  | nil => simpa [Bindings.put] using admitted
  | cons binding others ih =>
      rw [List.forall_mem_cons] at all
      rw [Bindings.put]
      split
      · exact List.forall_mem_cons.mpr ⟨admitted, all.2⟩
      · exact List.forall_mem_cons.mpr ⟨all.1, ih all.2⟩

namespace Scopes

variable {scopes : Scopes}

theorem admitted_push (admitted : scopes.Admitted admits) (enclosing : Option Nat) :
    (scopes.push enclosing).Admitted admits := by
  intro frame frame_mem
  rcases Array.mem_push.mp frame_mem with frame_mem | rfl
  · exact admitted frame frame_mem
  · simp

theorem admitted_define (admitted : scopes.Admitted admits) (id : Nat) (name : String)
    {value : Value} (value_admitted : value.Admitted admits) :
    (scopes.define id name value).Admitted admits := by
  intro frame frame_mem
  rcases Array.getElem_of_mem frame_mem with ⟨other, isFrame, rfl⟩
  have isOld : other < scopes.frames.size := by simpa [define] using isFrame
  simp only [define, Array.getElem_modify]
  split
  · exact Bindings.admitted_put (admitted _ (Array.getElem_mem isOld)) value_admitted
  · exact admitted _ (Array.getElem_mem isOld)

theorem admitted_of_locate (admitted : scopes.Admitted admits) {name : String} {id owner : Nat}
    {value : Value} (located : scopes.locate name id = some (owner, value)) :
    value.Admitted admits := by
  fun_induction scopes.locate name id with
  | case1 id isFrame bound found =>
      cases located
      exact Bindings.admitted_of_find (admitted _ (Array.getElem_mem isFrame)) found
  | case2 id isFrame _ outer outer_eq ih => exact ih located
  | case3 => cases located
  | case4 => cases located

end Scopes

theorem Interpreter.admitted_start (output : Output) (clock : Clock) :
    (Interpreter.start output clock).Admitted admits := by
  apply Scopes.admitted_define
  · apply Scopes.admitted_push
    intro frame frame_mem
    simp [Scopes.empty] at frame_mem
  · trivial

theorem Value.Admitted.mono {weaker : FunctionDeclaration → Prop} {value : Value}
    (admitted : value.Admitted admits)
    (weaken : ∀ declaration, admits declaration → weaker declaration) : value.Admitted weaker := by
  match value with
  | .callable ⟨_, .declared declaration _⟩ => exact weaken declaration admitted
  | .callable ⟨_, .clock⟩ | .nil | .boolean _ | .number _ | .string _ => trivial

theorem Interpreter.Admitted.mono {weaker : FunctionDeclaration → Prop} {state : Interpreter}
    (admitted : state.Admitted admits)
    (weaken : ∀ declaration, admits declaration → weaker declaration) : state.Admitted weaker :=
  fun frame frame_mem binding binding_mem =>
    (admitted frame frame_mem binding binding_mem).mono weaken

namespace Evaluation

variable {stops : Interruption → Prop}

theorem ensures_lookup (frame : Nat) {name : Name}
    (undefined : stops (.error (.undefinedVariable name))) :
    Ensures (Interpreter.Admitted admits) stops (lookup frame name) (Value.Admitted admits) := by
  intro before admitted
  cases located : before.scopes.locate name.lexeme frame with
  | none =>
      simp only [lookup, Scopes.find, located, Option.map_none]
      exact ⟨admitted, undefined⟩
  | some binding =>
      simp only [lookup, Scopes.find, located, Option.map_some]
      exact ⟨admitted, Scopes.admitted_of_locate admitted located⟩

theorem ensures_assign (frame : Nat) {name : Name}
    (undefined : stops (.error (.undefinedVariable name))) {value : Value}
    (value_admitted : value.Admitted admits) :
    Ensures (Interpreter.Admitted admits) stops (assign frame name value)
      (Value.Admitted admits) := by
  intro before admitted
  cases owner_eq : before.scopes.owner frame name.lexeme with
  | none =>
      simp only [assign, owner_eq]
      exact ⟨admitted, undefined⟩
  | some owner =>
      simp only [assign, owner_eq]
      exact ⟨Scopes.admitted_define admitted owner name.lexeme value_admitted, value_admitted⟩

theorem ensures_define (frame : Nat) (name : String) {value : Value}
    (value_admitted : value.Admitted admits) :
    Ensures (Interpreter.Admitted admits) stops (define frame name value) fun _ => True :=
  ensures_modify fun _ admitted => Scopes.admitted_define admitted frame name value_admitted

theorem ensures_defineAll (frame : Nat) (names : List Name) {values : List Value}
    (values_admitted : ∀ value ∈ values, value.Admitted admits) :
    Ensures (Interpreter.Admitted admits) stops (defineAll frame names values) fun _ => True := by
  apply ensures_forM
  rintro ⟨name, value⟩ pair_mem
  exact ensures_define frame name.lexeme (values_admitted value (List.of_mem_zip pair_mem).2)

theorem ensures_newFrame (enclosing : Option Nat) :
    Ensures (Interpreter.Admitted admits) stops (newFrame enclosing) fun _ => True := by
  intro before admitted
  exact ⟨Scopes.admitted_push admitted enclosing, trivial⟩

theorem ensures_newCallable {declaration : FunctionDeclaration} (closure : Nat)
    (declaration_admitted : admits declaration) :
    Ensures (Interpreter.Admitted admits) stops (newCallable (.declared declaration closure))
      (Value.Admitted admits) := by
  intro before admitted
  exact ⟨admitted, declaration_admitted⟩

theorem ensures_operate {token : Token} {kind : Token.Kind} {result : Except OperatorError Value}
    (fits : FitsOperator kind result)
    (refused : ∀ error : OperatorError, kind ∈ error.kinds →
      stops (.error (.operator token error))) :
    Ensures (Interpreter.Admitted admits) stops (operate token result)
      (Value.Admitted admits) := by
  cases result with
  | ok value => exact ensures_pure (Value.IsPlain.admitted fits)
  | error error => exact ensures_fail (refused error fits)

theorem ensures_print {keyword : Token.OfKind .printWord}
    (full : ∀ cause, stops (.error (.output keyword cause))) (value : Value) :
    Ensures (Interpreter.Admitted admits) stops (print keyword value) fun _ => True := by
  intro before admitted
  by_cases fits : before.output.fits (value.text ++ "\n")
  · simp only [print, fits, if_true]
    exact ⟨admitted, trivial⟩
  · simp only [print, fits]
    exact ⟨admitted, full _⟩

theorem ensures_readClock :
    Ensures (Interpreter.Admitted admits) stops readClock (Value.Admitted admits) := by
  intro before admitted
  exact ⟨admitted, trivial⟩

theorem ensures_sleep {keyword : Token.OfKind .sleepWord}
    (notNumber : stops (.error (.sleepDurationNotNumber keyword))) (value : Value) :
    Ensures (Interpreter.Admitted admits) stops (sleep keyword value) fun _ => True := by
  cases value with
  | number => exact ensures_modify fun _ admitted => admitted
  | nil | boolean | string | callable => exact ensures_fail notNumber

theorem ensures_resolve {paren : Token.OfKind .rightParen}
    (notCallable : stops (.error (.notCallable paren)))
    (mismatch : ∀ expected found, stops (.error (.arityMismatch paren expected found)))
    {callee : Value} (callee_admitted : callee.Admitted admits) (count : Nat) :
    Ensures (Interpreter.Admitted admits) stops (resolve paren callee count)
      fun object => (Value.callable object).Admitted admits := by
  cases callee with
  | callable object =>
      simp only [resolve]
      split
      · exact ensures_pure callee_admitted
      · exact ensures_fail (mismatch _ _)
  | nil | boolean | number | string => exact ensures_fail notCallable

theorem ensures_deepen {α : Type} {gives : α → Prop} {paren : Token.OfKind .rightParen}
    (overflow : stops (.error (.stackOverflow paren))) {body : Evaluation α}
    (body_ensures : Ensures (Interpreter.Admitted admits) stops body gives) :
    Ensures (Interpreter.Admitted admits) stops (deepen paren body) gives := by
  intro before admitted
  by_cases deep : maxCallDepth ≤ before.callDepth
  · simp only [deepen, deep, if_true]
    exact ⟨admitted, overflow⟩
  · have outcome := body_ensures { before with callDepth := before.callDepth + 1 } admitted
    simp only [deepen, deep, if_false]
    cases run : body { before with callDepth := before.callDepth + 1 } with
    | ok value after =>
        rw [run] at outcome
        exact outcome
    | error stop after =>
        rw [run] at outcome
        exact outcome

end Evaluation

end Scriptlet
