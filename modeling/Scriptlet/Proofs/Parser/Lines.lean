import Scriptlet.Parser.Basic
import Scriptlet.Proofs.Token.Line

/-!
# Readers that ignore lines

A reader ignores lines if, on tokens without lines, it gives the same result and reports the same
errors without lines. Reported errors keep the tokens they are reported at, so this is about all
errors, and it holds of faulty tokens too.

There is one rule for each way in which readers are put together.
-/

namespace Scriptlet

/-- A syntax error without the line of its token. -/
def SyntaxError.withoutLine (error : SyntaxError) : SyntaxError :=
  ⟨error.cause, error.token.map Token.withoutLine⟩

theorem Token.OfKind.of?_withoutLine (kind : Token.Kind) (token : Token) :
    of? kind token.withoutLine = (of? kind token).map withoutLine := by
  by_cases same : token.kind = kind <;> simp [of?, same, withoutLine]

theorem Operator.of?_withoutLine {Family : Type} {kindOf : Family → Token.Kind} (token : Token)
    (meanings : List Family) :
    of? kindOf token.withoutLine meanings = (of? kindOf token meanings).map withoutLine := by
  induction meanings with
  | nil => rfl
  | cons meaning others ih =>
      by_cases same : token.kind = kindOf meaning <;> simp [of?, same, ih, withoutLine]

namespace Parser

variable {α β γ δ : Type}

/-- The state of a reader without the lines of tokens. -/
def State.withoutLines (state : State) : State :=
  ⟨state.rest.map Token.withoutLine, state.loopDepth, state.functionDepth,
    state.errors.map SyntaxError.withoutLine⟩

/-- What a reader ends with, without lines in the result, the errors and what is left. -/
def resultWithoutLines (erase : α → β) :
    EStateM.Result SyntaxError State α → EStateM.Result SyntaxError State β
  | .ok value after => .ok (erase value) after.withoutLines
  | .error error after => .error error.withoutLine after.withoutLines

/-- Reading tokens without lines with the second reader gives what reading the tokens with the first
one gives, without lines. -/
def IgnoresLines (reader : Parser α) (other : Parser β) (erase : α → β) : Prop :=
  ∀ state : State, other state.withoutLines = resultWithoutLines erase (reader state)

section

variable {reader : Parser α} {other : Parser β} {erase : α → β}

theorem ignoresLines_pure {value : α} {copy : β} (copied : erase value = copy) :
    IgnoresLines (pure value) (pure copy) erase := by
  subst copied
  exact fun _ => rfl

theorem IgnoresLines.bind (first : IgnoresLines reader other erase) {next : α → Parser γ}
    {otherNext : β → Parser δ} {eraseNext : γ → δ}
    (second : ∀ value, IgnoresLines (next value) (otherNext (erase value)) eraseNext) :
    IgnoresLines (reader >>= next) (other >>= otherNext) eraseNext := by
  intro state
  change EStateM.bind other otherNext state.withoutLines
    = resultWithoutLines eraseNext (EStateM.bind reader next state)
  rw [EStateM.bind, EStateM.bind, first state]
  cases reader state with
  | ok value after => exact second value after
  | error error after => rfl

theorem IgnoresLines.map (ignores : IgnoresLines reader other erase) {make : α → γ}
    {otherMake : β → δ} {eraseNext : γ → δ}
    (commutes : ∀ value, eraseNext (make value) = otherMake (erase value)) :
    IgnoresLines (make <$> reader) (otherMake <$> other) eraseNext := by
  rw [← bind_pure_comp, ← bind_pure_comp]
  exact ignores.bind fun value => ignoresLines_pure (commutes value)

theorem ignoresLines_fail (cause : SyntaxError.Cause) :
    IgnoresLines (fail cause) (fail cause) erase := by
  rintro ⟨_ | ⟨token, rest⟩, loopDepth, functionDepth, errors⟩ <;> rfl

theorem ignoresLines_report {error copy : SyntaxError} (copied : error.withoutLine = copy) :
    IgnoresLines (report error) (report copy) id := by
  subst copied
  intro state
  simp [report, resultWithoutLines, State.withoutLines]

theorem ignoresLines_reportHere (cause : SyntaxError.Cause) :
    IgnoresLines (reportHere cause) (reportHere cause) id := by
  intro state
  apply ignoresLines_report
  rw [SyntaxError.withoutLine, State.withoutLines, List.head?_map]

theorem ignoresLines_atEnd : IgnoresLines atEnd atEnd id := by
  rintro ⟨_ | ⟨token, rest⟩, loopDepth, functionDepth, errors⟩ <;> rfl

theorem ignoresLines_check (kind : Token.Kind) : IgnoresLines (check kind) (check kind) id := by
  rintro ⟨_ | ⟨token, rest⟩, loopDepth, functionDepth, errors⟩ <;> rfl

theorem ignoresLines_get : IgnoresLines get get State.withoutLines :=
  fun _ => rfl

theorem ignoresLines_accept {classify : Token → Option α} {otherClassify : Token → Option β}
    (same : ∀ token, otherClassify token.withoutLine = (classify token).map erase) :
    IgnoresLines (accept classify) (accept otherClassify) (Option.map erase) := by
  rintro ⟨_ | ⟨token, rest⟩, loopDepth, functionDepth, errors⟩
  · rfl
  · simp only [accept, State.withoutLines, List.map_cons, same]
    cases classify token <;> rfl

theorem ignoresLines_acceptKind (kind : Token.Kind) :
    IgnoresLines (acceptKind kind) (acceptKind kind) (Option.map Token.OfKind.withoutLine) :=
  ignoresLines_accept (Token.OfKind.of?_withoutLine kind)

theorem ignoresLines_expect (kind : Token.Kind) (cause : SyntaxError.Cause) :
    IgnoresLines (expect kind cause) (expect kind cause) Token.OfKind.withoutLine := by
  apply (ignoresLines_acceptKind kind).bind
  rintro (_ | token)
  · exact ignoresLines_fail cause
  · exact ignoresLines_pure rfl

theorem ignoresLines_expectSymbol (kind : Token.Kind) (place : SyntaxError.Place) :
    IgnoresLines (expectSymbol kind place) (expectSymbol kind place) Token.OfKind.withoutLine :=
  ignoresLines_expect kind _

end

section

variable {step : α → Parser (Option α)} {otherStep : β → Parser (Option β)} {erase : α → β}

/-- The bound of a repetition is a number of tokens. -/
theorem ignoresLines_iterate
    (each : ∀ value, IgnoresLines (step value) (otherStep (erase value)) (Option.map erase))
    (bound : List Token) (value : α) :
    IgnoresLines (iterate step bound value)
      (iterate otherStep (bound.map Token.withoutLine) (erase value)) erase := by
  induction bound generalizing value with
  | nil => exact ignoresLines_pure rfl
  | cons _ bound ih =>
      apply (each value).bind
      rintro (_ | next)
      · exact ignoresLines_pure rfl
      · exact ih next

theorem ignoresLines_loop
    (each : ∀ value, IgnoresLines (step value) (otherStep (erase value)) (Option.map erase))
    {value : α} {copy : β} (copied : erase value = copy) :
    IgnoresLines (loop step value) (loop otherStep copy) erase := by
  subst copied
  exact fun state => ignoresLines_iterate each state.rest value state

end

section

variable {item : Parser (Option α)} {otherItem : Parser (Option β)} {erase : α → β}

theorem ignoresLines_many (items : IgnoresLines item otherItem (Option.map erase)) :
    IgnoresLines (many item) (many otherItem) (List.map erase) := by
  suffices collected : IgnoresLines (loop _ []) (loop _ []) (List.map erase) from
    collected.bind fun reversed => ignoresLines_pure List.map_reverse
  refine ignoresLines_loop ?_ rfl
  intro earlier
  apply items.bind
  rintro (_ | value) <;> exact ignoresLines_pure rfl

end

section

variable {item : Parser α} {otherItem : Parser β} {erase : α → β}

theorem ignoresLines_member (excess : SyntaxError.Cause) (items : IgnoresLines item otherItem erase)
    (earlier : List α) :
    IgnoresLines (member excess item earlier) (member excess otherItem (earlier.map erase))
      (List.map erase) := by
  have added : IgnoresLines (item >>= fun value => pure (value :: earlier))
      (otherItem >>= fun value => pure (value :: earlier.map erase)) (List.map erase) :=
    items.bind fun _ => ignoresLines_pure rfl
  simp only [member, List.length_map]
  split
  · exact (ignoresLines_reportHere excess).bind fun _ => added
  · exact added

theorem ignoresLines_separated (excess : SyntaxError.Cause)
    (items : IgnoresLines item otherItem erase) :
    IgnoresLines (separated excess item) (separated excess otherItem) (List.map erase) := by
  apply (ignoresLines_member excess items []).bind
  intro first
  suffices collected : IgnoresLines (loop _ first) (loop _ (first.map erase)) (List.map erase) from
    collected.bind fun reversed => ignoresLines_pure List.map_reverse
  refine ignoresLines_loop ?_ rfl
  intro earlier
  apply (ignoresLines_acceptKind .comma).bind
  rintro (_ | comma)
  · exact ignoresLines_pure rfl
  · exact (ignoresLines_member excess items earlier).bind fun _ => ignoresLines_pure rfl

theorem ignoresLines_closedList (excess : SyntaxError.Cause) (place : SyntaxError.Place)
    (items : IgnoresLines item otherItem erase) :
    IgnoresLines (closedList excess place item) (closedList excess place otherItem)
      (Prod.map (List.map erase) Token.OfKind.withoutLine) := by
  apply (ignoresLines_check .rightParen).bind
  have closed (values : List α) : IgnoresLines
      (expectSymbol .rightParen place >>= fun paren => pure (values, paren))
      (expectSymbol .rightParen place >>= fun paren => pure (values.map erase, paren))
      (Prod.map (List.map erase) Token.OfKind.withoutLine) :=
    (ignoresLines_expectSymbol .rightParen place).bind fun _ => ignoresLines_pure rfl
  rintro (_ | _)
  · exact (ignoresLines_separated excess items).bind closed
  · exact closed []

theorem ignoresLines_inLoop (bodies : IgnoresLines item otherItem erase) :
    IgnoresLines (inLoop item) (inLoop otherItem) erase := by
  intro state
  have ended := bodies { state with loopDepth := state.loopDepth + 1 }
  simp only [State.withoutLines] at ended
  simp only [inLoop, State.withoutLines, ended]
  cases item { state with loopDepth := state.loopDepth + 1 } <;> rfl

theorem ignoresLines_inFunction (bodies : IgnoresLines item otherItem erase) :
    IgnoresLines (inFunction item) (inFunction otherItem) erase := by
  intro state
  have ended := bodies { state with loopDepth := 0, functionDepth := state.functionDepth + 1 }
  simp only [State.withoutLines] at ended
  simp only [inFunction, State.withoutLines, ended]
  cases item { state with loopDepth := 0, functionDepth := state.functionDepth + 1 } <;> rfl

theorem resume_withoutLines (tokens : List Token) :
    resume (tokens.map Token.withoutLine) = (resume tokens).map Token.withoutLine := by
  induction tokens with
  | nil => rfl
  | cons token rest ih =>
      have opens_eq : (rest.map Token.withoutLine).head?.any (opensStatement ·.kind)
          = rest.head?.any (opensStatement ·.kind) := by
        cases rest <;> rfl
      simp only [List.map_cons, resume, Token.withoutLine_kind, opens_eq, ih]
      split
      · rfl
      · split <;> rfl

theorem ignoresLines_recovering (items : IgnoresLines item otherItem erase) :
    IgnoresLines (recovering item) (recovering otherItem) (Option.map erase) := by
  intro state
  simp only [recovering, items state]
  cases item state with
  | ok value after => rfl
  | error error after =>
      simp only [resultWithoutLines, State.withoutLines, resume_withoutLines, List.map_append]
      rfl

end

end Parser

end Scriptlet
