import Scriptlet.Proofs.Evaluation.StateLines

/-!
# Steps on a copy

A copy of a state has no lines in its functions and has forgotten what was written before some
moment. Each step of evaluation, done to a state and to its copy, leads to a state and its copy, and
gives the same value or fails in the same way apart from lines. The text that a step prints is thus
the same on both, because the text of a value shows no lines.
-/

namespace Scriptlet

/-- An error without the line of its token. -/
def RuntimeError.withoutLine : RuntimeError → RuntimeError
  | .undefinedVariable name => .undefinedVariable name.withoutLine
  | .operator token error => .operator token.withoutLine error
  | .notCallable paren => .notCallable paren.withoutLine
  | .arityMismatch paren expected found => .arityMismatch paren.withoutLine expected found
  | .stackOverflow paren => .stackOverflow paren.withoutLine
  | .sleepDurationNotNumber keyword => .sleepDurationNotNumber keyword.withoutLine
  | .output keyword cause => .output keyword.withoutLine cause

/-- A state and a copy of it that lacks lines and what an earlier output holds. -/
structure Interpreter.Copied (earlier : Output) (state copy : Interpreter) : Prop where
  scopes_eq : state.scopes.withoutLines = copy.scopes
  nextIdentity_eq : state.nextIdentity = copy.nextIdentity
  callDepth_eq : state.callDepth = copy.callDepth
  clock_eq : state.clock = copy.clock
  room_eq : state.output.room = copy.output.room
  refusal_eq : state.output.refusal = copy.output.refusal
  written_eq : state.output.written = earlier.written ++ copy.output.written
  unlimited : earlier.room = none → copy.output.room = none

namespace Interpreter.Copied

variable {earlier : Output} {state copy : Interpreter}

theorem write (copied : Copied earlier state copy) (text : String) :
    Copied earlier { state with output := state.output.write text }
      { copy with output := copy.output.write text } := by
  have written_eq := copied.written_eq
  have room_eq := copied.room_eq
  have unlimited := copied.unlimited
  have refusal_eq : (state.output.write text).refusal = (copy.output.write text).refusal := by
    rw [Output.refusal_write, Output.refusal_write, copied.refusal_eq]
  cases room : copy.output.room with
  | none =>
      rw [room] at room_eq
      refine { copied with room_eq := ?_, refusal_eq, written_eq := ?_, unlimited := ?_ }
      · simp only [Output.write, room_eq, room]
      · simp only [Output.write, room_eq, room, written_eq, ByteArray.append_assoc]
      · simp only [Output.write, room, implies_true]
  | some left =>
      rw [room] at room_eq unlimited
      refine { copied with room_eq := ?_, refusal_eq, written_eq := ?_, unlimited := ?_ }
      · simp only [Output.write, room_eq, room]
      · simp only [Output.write, room_eq, room, written_eq, ByteArray.append_assoc]
      · intro limitless
        cases unlimited limitless

end Interpreter.Copied

namespace Evaluation

open Interpreter

/-- A value and the same value without lines. -/
abbrev ValueCopied (value copy : Value) : Prop := value.withoutLines = copy

/-- An interruption and the same one without lines. -/
inductive StopCopied : Interruption → Interruption → Prop where
  | error (error : RuntimeError) : StopCopied (.error error) (.error error.withoutLine)
  | strayJump {completion copy : Completion}
      (completions_match : CompletionsMatch ValueCopied completion copy) :
      StopCopied (.abort (.strayJump completion)) (.abort (.strayJump copy))
  | exhausted : StopCopied (.abort .exhausted) (.abort .exhausted)

/-- A computation and the same one on copies. -/
abbrev Follows {α β : Type} (earlier : Output) (computation : Evaluation α)
    (copy : Evaluation β) (gives : α → β → Prop) : Prop :=
  Lockstep (Copied earlier) StopCopied computation copy gives

variable {earlier : Output}

theorem follows_lookup (frame : Nat) (name : Name) :
    Follows earlier (lookup frame name) (lookup frame name.withoutLine) ValueCopied := by
  intro state copy copied
  have located := state.scopes.locate_withoutLines name.lexeme frame
  rw [copied.scopes_eq] at located
  simp only [lookup, Scopes.find, Token.OfKind.withoutLine_lexeme, located]
  cases state.scopes.locate name.lexeme frame with
  | none => exact .error (.error (.undefinedVariable name)) copied
  | some binding => exact .ok rfl copied

theorem follows_assign (frame : Nat) (name : Name) (value : Value) :
    Follows earlier (assign frame name value) (assign frame name.withoutLine value.withoutLines)
      ValueCopied := by
  intro state copy copied
  have located := state.scopes.locate_withoutLines name.lexeme frame
  rw [copied.scopes_eq] at located
  simp only [assign, Scopes.owner, Token.OfKind.withoutLine_lexeme, located]
  cases state.scopes.locate name.lexeme frame with
  | none => exact .error (.error (.undefinedVariable name)) copied
  | some binding =>
      refine .ok rfl { copied with scopes_eq := ?_ }
      simp only [Scopes.define_withoutLines, copied.scopes_eq]

theorem follows_define (frame : Nat) (name : String) (value : Value) :
    Follows earlier (define frame name value) (define frame name value.withoutLines)
      fun _ _ => True := by
  apply lockstep_modify
  intro state copy copied
  exact { copied with
    scopes_eq := by simp only [Scopes.define_withoutLines, copied.scopes_eq] }

theorem follows_defineAll (frame : Nat) (names : List Name) {values copies : List Value}
    (values_copied : List.Forall₂ ValueCopied values copies) :
    Follows earlier (defineAll frame names values)
      (defineAll frame (names.map Token.OfKind.withoutLine) copies) fun _ _ => True := by
  induction values_copied generalizing names with
  | nil =>
      simp only [defineAll, List.zip_nil_right]
      exact lockstep_pure trivial
  | @cons value copy values copies value_copied _ ih =>
      cases names with
      | nil => exact lockstep_pure trivial
      | cons name names =>
          subst value_copied
          exact (follows_define frame name.lexeme value).bind fun _ _ _ => ih names

theorem follows_newFrame (enclosing : Option Nat) :
    Follows earlier (newFrame enclosing) (newFrame enclosing) Eq := by
  intro state copy copied
  have id_eq : state.scopes.nextId = copy.scopes.nextId := by
    rw [← copied.scopes_eq, Scopes.nextId_withoutLines]
  refine .ok id_eq { copied with scopes_eq := ?_ }
  simp only [Scopes.push_withoutLines, copied.scopes_eq]

theorem follows_newCallable (function : Function) :
    Follows earlier (newCallable function) (newCallable function.withoutLines) ValueCopied := by
  intro state copy copied
  refine .ok ?_ { copied with nextIdentity_eq := ?_ }
  · rw [copied.nextIdentity_eq]
    rfl
  · simp only [copied.nextIdentity_eq]

theorem follows_operate (token : Token) (result : Except OperatorError Value) :
    Follows earlier (operate token result)
      (operate token.withoutLine (result.map Value.withoutLines)) ValueCopied := by
  cases result with
  | ok value => exact lockstep_pure rfl
  | error error => exact lockstep_fail (.error (.operator token error))

theorem follows_print (keyword : Token.OfKind .printWord) (value : Value) :
    Follows earlier (print keyword value) (print keyword.withoutLine value.withoutLines)
      fun _ _ => True := by
  intro state copy copied
  have fits_eq : state.output.fits (value.text ++ "\n") = copy.output.fits (value.text ++ "\n") := by
    rw [Output.fits, Output.fits, copied.room_eq]
  simp only [print, Value.text_withoutLines, fits_eq]
  split
  · exact .ok trivial (copied.write _)
  · rw [Output.refusal_write, Output.refusal_write, ← copied.refusal_eq]
    exact .error (.error (.output keyword _)) (copied.write _)

theorem follows_readClock : Follows earlier readClock readClock ValueCopied := by
  intro state copy copied
  refine .ok ?_ { copied with clock_eq := ?_ }
  · rw [copied.clock_eq]
    rfl
  · simp only [copied.clock_eq]

theorem follows_sleep (keyword : Token.OfKind .sleepWord) (value : Value) :
    Follows earlier (sleep keyword value) (sleep keyword.withoutLine value.withoutLines)
      fun _ _ => True := by
  cases value with
  | number milliseconds =>
      apply lockstep_modify
      intro state copy copied
      exact { copied with clock_eq := by simp only [copied.clock_eq] }
  | nil | boolean | string | callable =>
      exact lockstep_fail (.error (.sleepDurationNotNumber keyword))

theorem follows_resolve (paren : Token.OfKind .rightParen) (callee : Value) (count : Nat) :
    Follows earlier (resolve paren callee count)
      (resolve paren.withoutLine callee.withoutLines count)
      fun object copy => object.withoutLines = copy := by
  cases callee with
  | callable object =>
      simp only [resolve, Value.withoutLines, Callable.arity_withoutLines]
      split
      · exact lockstep_pure rfl
      · exact lockstep_fail (.error (.arityMismatch paren object.arity count))
  | nil | boolean | number | string => exact lockstep_fail (.error (.notCallable paren))

theorem follows_deepen {α β : Type} {gives : α → β → Prop} (paren : Token.OfKind .rightParen)
    {body : Evaluation α} {bodyCopy : Evaluation β}
    (bodies : Follows earlier body bodyCopy gives) :
    Follows earlier (deepen paren body) (deepen paren.withoutLine bodyCopy) gives := by
  intro state copy copied
  simp only [deepen, copied.callDepth_eq]
  split
  · exact .error (.error (.stackOverflow paren)) copied
  · have deeper : Copied earlier { state with callDepth := copy.callDepth + 1 }
        { copy with callDepth := copy.callDepth + 1 } := { copied with callDepth_eq := rfl }
    have outcomes := bodies _ _ deeper
    revert outcomes
    generalize body _ = outcome, bodyCopy _ = copyOutcome
    intro outcomes
    cases outcomes with
    | ok values_match after_copied =>
        exact .ok values_match
          { after_copied with callDepth_eq := by simp only [after_copied.callDepth_eq] }
    | error stops_match after_copied =>
        exact .error stops_match
          { after_copied with callDepth_eq := by simp only [after_copied.callDepth_eq] }

theorem follows_result {completion copy : Completion}
    (completions_match : CompletionsMatch ValueCopied completion copy) :
    Follows earlier (result completion) (result copy) ValueCopied := by
  cases completions_match with
  | normal => exact lockstep_pure rfl
  | returning value_copied => exact lockstep_pure value_copied
  | breaking => exact lockstep_abort (.strayJump .breaking)
  | continuing => exact lockstep_abort (.strayJump .continuing)

end Evaluation

end Scriptlet
