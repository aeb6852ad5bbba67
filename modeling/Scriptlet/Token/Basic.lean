import Scriptlet.Number
import Scriptlet.Token.Kind

/-!
# Tokens

A token is a piece of source text with its kind, the line on which it starts, and the value that it
denotes if it is a literal.
-/

namespace Scriptlet

/-- A value written in a source. -/
inductive Literal where
  | nil
  | boolean (value : Bool)
  | number (value : Float)
  | string (value : String)
  deriving DecidableEq

namespace Literal

/-- A truth value as it is written in a source, and as it is printed. -/
def booleanText (value : Bool) : String :=
  if value then "true" else "false"

/-- A literal as it is written in a source. -/
def text : Literal → String
  | .nil => "nil"
  | .boolean value => booleanText value
  | .number value => Number.text value
  | .string value => "\"" ++ value ++ "\""

end Literal

/-- A piece of source text that the grammar is about. -/
structure Token where
  kind : Token.Kind
  lexeme : String
  literal : Option Literal
  line : Nat
  deriving DecidableEq

namespace Token

/-- Kind, text and literal of a token, for display. -/
def text (token : Token) : String :=
  let shown := token.kind.name ++ " " ++ token.lexeme
  match token.literal with
  | none => shown
  | some literal => shown ++ " " ++ literal.text

/-- The token that stands for the end of a source. -/
def atEnd (line : Nat) : Token :=
  ⟨.endOfInput, "", none, line⟩

end Token

/-- Tokens closed by the one that stands for the end of input. -/
structure Tokens where
  body : List Token
  last : Token
  deriving DecidableEq

namespace Tokens

/-- The tokens up to the first end of input, which must be there. -/
def ofList? : List Token → Option Tokens
  | [] => none
  | token :: following =>
      if token.kind = .endOfInput then some ⟨[], token⟩
      else (ofList? following).map fun tokens => ⟨token :: tokens.body, tokens.last⟩

/-- All tokens, the end of the input included. -/
def toList (tokens : Tokens) : List Token :=
  tokens.body ++ [tokens.last]

end Tokens

end Scriptlet
