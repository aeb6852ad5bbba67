import Scriptlet.Proofs.Evaluation.Correspondence
import Scriptlet.Proofs.Grammar.StatementLines

/-!
# States apart from lines

Lines get into a state with the functions bound in it, and into an interruption with the token of a
runtime error. A copy of a state has neither these lines nor what was written before some moment.
The steps of evaluation do the same to a state and to its copy.
-/

namespace Scriptlet

/-- A function without the lines of its tokens. -/
def FunctionDeclaration.withoutLines (declaration : FunctionDeclaration) : FunctionDeclaration :=
  ⟨declaration.name.withoutLine, declaration.parameters.map Token.OfKind.withoutLine,
    Stmt.listWithoutLines declaration.body⟩

/-- What a callable does, without the lines in its body. -/
def Function.withoutLines : Function → Function
  | .clock => .clock
  | .declared declaration closure => .declared declaration.withoutLines closure

/-- A callable without the lines in its body. -/
def Callable.withoutLines (object : Callable) : Callable :=
  ⟨object.identity, object.function.withoutLines⟩

namespace Callable

@[simp]
theorem arity_withoutLines (object : Callable) : object.withoutLines.arity = object.arity := by
  rcases object with ⟨identity, _ | declaration⟩
  · rfl
  · exact List.length_map _

@[simp]
theorem text_withoutLines (object : Callable) : object.withoutLines.text = object.text := by
  rcases object with ⟨identity, _ | declaration⟩ <;> rfl

end Callable

/-- Programs cannot tell whether the body of a function has lines. -/
theorem Callable.indistinguishable_withoutLines :
    Indistinguishable fun object copy => object.withoutLines = copy where
  arity_eq := by
    rintro object _ rfl
    exact object.arity_withoutLines.symm
  text_eq := by
    rintro object _ rfl
    exact object.text_withoutLines.symm
  identity_iff := by
    rintro _ _ _ _ rfl rfl
    rfl

/-- A value without the lines in the body of a function. -/
def Value.withoutLines : Value → Value
  | .callable object => .callable object.withoutLines
  | value => value

namespace Value

theorem alike_withoutLines (value : Value) :
    value.Alike (fun object copy => object.withoutLines = copy) value.withoutLines := by
  cases value with
  | callable object => exact .callable rfl
  | nil | boolean | number | string => exact .plain trivial

theorem IsPlain.withoutLines_eq {value : Value} (isPlain : value.IsPlain) :
    value.withoutLines = value := by
  cases value with
  | callable => cases isPlain
  | nil | boolean | number | string => rfl

@[simp]
theorem isTruthy_withoutLines (value : Value) : value.withoutLines.isTruthy = value.isTruthy :=
  value.alike_withoutLines.isTruthy_eq.symm

@[simp]
theorem text_withoutLines (value : Value) : value.withoutLines.text = value.text :=
  (value.alike_withoutLines.text_eq Callable.indistinguishable_withoutLines).symm

@[simp]
theorem withoutLines_ofLiteral (literal : Literal) :
    (ofLiteral literal).withoutLines = ofLiteral literal :=
  (isPlain_ofLiteral literal).withoutLines_eq

end Value

theorem FitsOperator.map_withoutLines {kind : Token.Kind} {result : Except OperatorError Value}
    (fits : FitsOperator kind result) : result.map Value.withoutLines = result := by
  cases result with
  | error => rfl
  | ok value => exact congrArg Except.ok (Value.IsPlain.withoutLines_eq fits)

theorem UnaryOperator.apply_withoutLines (operator : UnaryOperator) (operand : Value) :
    operator.apply operand.withoutLines = (operator.apply operand).map Value.withoutLines := by
  rw [(operator.fitsOperator_apply operand).map_withoutLines]
  exact (operator.apply_eq_of_alike operand.alike_withoutLines).symm

theorem BinaryOperator.apply_withoutLines (operator : BinaryOperator) (left right : Value) :
    operator.apply left.withoutLines right.withoutLines
      = (operator.apply left right).map Value.withoutLines := by
  rw [(operator.fitsOperator_apply left right).map_withoutLines]
  exact (operator.apply_eq_of_alike Callable.indistinguishable_withoutLines
    left.alike_withoutLines right.alike_withoutLines).symm

theorem LogicalOperator.decidedBy_withoutLines (operator : LogicalOperator) (left : Value) :
    operator.decidedBy left.withoutLines = operator.decidedBy left := by
  cases operator <;> simp [decidedBy]

/-- The bindings of a frame without lines. -/
def Bindings.withoutLines (bindings : Bindings) : Bindings :=
  bindings.map fun binding => (binding.1, binding.2.withoutLines)

namespace Bindings

theorem find_withoutLines (bindings : Bindings) (name : String) :
    bindings.withoutLines.find name = (bindings.find name).map Value.withoutLines := by
  induction bindings with
  | nil => rfl
  | cons binding others ih =>
      rcases binding with ⟨bound, value⟩
      simp only [withoutLines, List.map_cons, find] at ih ⊢
      split
      · rfl
      · exact ih

theorem put_withoutLines (bindings : Bindings) (name : String) (value : Value) :
    (bindings.put name value).withoutLines
      = bindings.withoutLines.put name value.withoutLines := by
  induction bindings with
  | nil => rfl
  | cons binding others ih =>
      rcases binding with ⟨bound, earlier⟩
      simp only [withoutLines, List.map_cons, put] at ih ⊢
      split
      · rfl
      · simp only [List.map_cons, ih]

end Bindings

/-- A frame without lines. -/
def Frame.withoutLines (frame : Frame) : Frame :=
  ⟨frame.bindings.withoutLines, frame.enclosing⟩

namespace Scopes

/-- All frames without lines. -/
def withoutLines (scopes : Scopes) : Scopes where
  frames := scopes.frames.map Frame.withoutLines
  enclosing_lt id isFrame outer outer_eq := by
    rw [Array.getElem_map] at outer_eq
    exact scopes.enclosing_lt id _ outer outer_eq

theorem push_withoutLines (scopes : Scopes) (enclosing : Option Nat) :
    (scopes.push enclosing).withoutLines = scopes.withoutLines.push enclosing := by
  simp [withoutLines, push, Frame.withoutLines, Bindings.withoutLines]

@[simp]
theorem nextId_withoutLines (scopes : Scopes) : scopes.withoutLines.nextId = scopes.nextId :=
  Array.size_map

theorem define_withoutLines (scopes : Scopes) (id : Nat) (name : String) (value : Value) :
    (scopes.define id name value).withoutLines
      = scopes.withoutLines.define id name value.withoutLines := by
  simp only [withoutLines, define, mk.injEq]
  apply Array.ext
  · simp
  · intro index isFrame _
    simp only [Array.getElem_map, Array.getElem_modify]
    split
    · simp only [Frame.withoutLines, Bindings.put_withoutLines]
    · rfl

theorem find_getElem_withoutLines (scopes : Scopes) {id : Nat}
    (isFrame : id < scopes.frames.size) (isCopy : id < scopes.withoutLines.frames.size)
    (name : String) :
    scopes.withoutLines.frames[id].bindings.find name
      = (scopes.frames[id].bindings.find name).map Value.withoutLines := by
  simp only [withoutLines, Array.getElem_map, Frame.withoutLines, Bindings.find_withoutLines]

theorem enclosing_getElem_withoutLines (scopes : Scopes) {id : Nat}
    (isFrame : id < scopes.frames.size) (isCopy : id < scopes.withoutLines.frames.size) :
    scopes.withoutLines.frames[id].enclosing = scopes.frames[id].enclosing := by
  simp only [withoutLines, Array.getElem_map, Frame.withoutLines]

theorem locate_withoutLines (scopes : Scopes) (name : String) (id : Nat) :
    scopes.withoutLines.locate name id
      = (scopes.locate name id).map fun binding => (binding.1, binding.2.withoutLines) := by
  have size_eq : scopes.withoutLines.frames.size = scopes.frames.size := Array.size_map
  fun_induction scopes.locate name id with
  | case1 id isFrame bound found =>
      have isCopy := size_eq ▸ isFrame
      have copyFound := scopes.find_getElem_withoutLines isFrame isCopy name
      rw [found] at copyFound
      exact locate_of_bound isCopy copyFound
  | case2 id isFrame missing outer outer_eq ih =>
      have isCopy := size_eq ▸ isFrame
      have copyMissing := scopes.find_getElem_withoutLines isFrame isCopy name
      rw [missing] at copyMissing
      rw [locate_of_enclosed isCopy copyMissing, ih]
      rw [scopes.enclosing_getElem_withoutLines isFrame isCopy, outer_eq]
  | case3 id isFrame missing outermost =>
      have isCopy := size_eq ▸ isFrame
      have copyMissing := scopes.find_getElem_withoutLines isFrame isCopy name
      rw [missing] at copyMissing
      rw [locate_of_outermost isCopy copyMissing]
      · rfl
      · rw [scopes.enclosing_getElem_withoutLines isFrame isCopy, outermost]
  | case4 id not_frame =>
      rw [locate_of_not_frame (size_eq ▸ not_frame)]
      rfl

end Scopes

end Scriptlet
