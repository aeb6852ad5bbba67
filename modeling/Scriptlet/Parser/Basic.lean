import Scriptlet.Parser.SyntaxError
import Scriptlet.Token.OfKind

/-!
# Reading tokens

A parser reads tokens from the front of what is left. It either fails, with the error not yet
reported, or gives a result; faults that need no new start are reported on the way. Depth counters
say in how many loops and functions the parser is.

A repetition needs no more steps than there are tokens left, because every step reads one.
-/

namespace Scriptlet

namespace Parser

/-- What a parser reads and keeps. -/
structure State where
  rest : List Token
  loopDepth : Nat
  functionDepth : Nat
  errors : List SyntaxError

/-- The state before anything is read. -/
def State.start (tokens : List Token) : State :=
  ⟨tokens, 0, 0, []⟩

end Parser

/-- A parser of `α`. The state after a failure is where the failure happened. -/
abbrev Parser := EStateM SyntaxError Parser.State

namespace Parser

variable {α : Type}

/-- The result of a parser on tokens, and the errors that it reported. -/
def run (parser : Parser α) (tokens : List Token) : Except SyntaxError α × List SyntaxError :=
  match parser (.start tokens) with
  | .ok value state => (.ok value, state.errors)
  | .error error state => (.error error, state.errors)

/-- Fails at the next token. -/
def fail (cause : SyntaxError.Cause) : Parser α := fun state =>
  .error ⟨cause, state.rest.head?⟩ state

/-- Reports an error and goes on. -/
def report (error : SyntaxError) : Parser Unit := fun state =>
  .ok () { state with errors := state.errors ++ [error] }

/-- Reports an error at the next token and goes on. -/
def reportHere (cause : SyntaxError.Cause) : Parser Unit := fun state =>
  report ⟨cause, state.rest.head?⟩ state

/-- Whether no token is left. -/
def atEnd : Parser Bool := fun state =>
  .ok state.rest.isEmpty state

/-- Whether the next token is of a kind. -/
def check (kind : Token.Kind) : Parser Bool := fun state =>
  .ok (state.rest.head?.any (·.kind = kind)) state

/-- Reads the next token if it is of a class, and gives what the class makes of it. -/
def accept (classify : Token → Option α) : Parser (Option α) := fun state =>
  match state.rest with
  | [] => .ok none state
  | token :: rest =>
      match classify token with
      | some value => .ok (some value) { state with rest }
      | none => .ok none state

/-- Reads the next token if it is of a kind. -/
def acceptKind (kind : Token.Kind) : Parser (Option (Token.OfKind kind)) :=
  accept (Token.OfKind.of? kind)

/-- Reads the next token, which must be of a kind. -/
def expect (kind : Token.Kind) (cause : SyntaxError.Cause) : Parser (Token.OfKind kind) := do
  match ← acceptKind kind with
  | some token => pure token
  | none => fail cause

/-- Reads a symbol that must stand at a place. -/
def expectSymbol (kind : Token.Kind) (place : SyntaxError.Place) : Parser (Token.OfKind kind) :=
  expect kind (.missingSymbol kind place)

/-- Repeats a step until it gives nothing, at most once for each of some tokens. -/
def iterate (step : α → Parser (Option α)) : List Token → α → Parser α
  | [], value => pure value
  | _ :: bound, value => do
      match ← step value with
      | some next => iterate step bound next
      | none => pure value

/-- Repeats a step until it gives nothing. A step that gives something must read a token. -/
def loop (step : α → Parser (Option α)) (value : α) : Parser α := fun state =>
  iterate step state.rest value state

/-- Reads items until there is no more. -/
def many (item : Parser (Option α)) : Parser (List α) := do
  let reversed ← loop (fun earlier => do pure ((← item).map (· :: earlier))) []
  pure reversed.reverse

/-- The most parameters or arguments that are not reported. -/
def maxArity : Nat := 255

/-- Reads one more item of a list and puts it in front of the earlier ones. Each item beyond the
greatest arity is reported. -/
def member (excess : SyntaxError.Cause) (item : Parser α) (earlier : List α) :
    Parser (List α) := do
  if maxArity ≤ earlier.length then reportHere excess
  let value ← item
  pure (value :: earlier)

/-- Reads items separated by commas; there is at least one. -/
def separated (excess : SyntaxError.Cause) (item : Parser α) : Parser (List α) := do
  let first ← member excess item []
  let reversed ← loop (fun earlier => do
    match ← acceptKind .comma with
    | some _ => do pure (some (← member excess item earlier))
    | none => pure none) first
  pure reversed.reverse

/-- Reads the items of a list and the parenthesis that closes it; there may be no item. -/
def closedList (excess : SyntaxError.Cause) (place : SyntaxError.Place) (item : Parser α) :
    Parser (List α × Token.OfKind .rightParen) := do
  let items ← if ← check .rightParen then pure [] else separated excess item
  let paren ← expectSymbol .rightParen place
  pure (items, paren)

/-- Reads the body of a loop. -/
def inLoop (body : Parser α) : Parser α := fun state =>
  match body { state with loopDepth := state.loopDepth + 1 } with
  | .ok value after => .ok value { after with loopDepth := after.loopDepth - 1 }
  | .error error after => .error error { after with loopDepth := after.loopDepth - 1 }

/-- Reads the body of a function. A loop around the function does not reach into it. -/
def inFunction (body : Parser α) : Parser α := fun state =>
  let leave (after : State) : State :=
    { after with loopDepth := state.loopDepth, functionDepth := after.functionDepth - 1 }
  match body { state with loopDepth := 0, functionDepth := state.functionDepth + 1 } with
  | .ok value after => .ok value (leave after)
  | .error error after => .error error (leave after)

/-- Whether a statement can start with a token of this kind and with no other statement before. -/
def opensStatement : Token.Kind → Bool
  | .classWord | .funWord | .varWord | .forWord | .ifWord | .whileWord | .printWord
  | .returnWord | .breakWord | .continueWord | .sleepWord => true
  | _ => false

/-- The tokens to go on with after a fault: the token at the fault is dropped, and those after it
up to the end of a statement or the start of another. -/
def resume : List Token → List Token
  | [] => []
  | token :: rest =>
      if token.kind = .semicolon then rest
      else if rest.head?.any (opensStatement ·.kind) then rest
      else resume rest

/-- Reports a failure and goes on with the next statement. -/
def recovering (parser : Parser α) : Parser (Option α) := fun state =>
  match parser state with
  | .ok value after => .ok (some value) after
  | .error error after =>
      .ok none { after with rest := resume after.rest, errors := after.errors ++ [error] }

end Parser

end Scriptlet
