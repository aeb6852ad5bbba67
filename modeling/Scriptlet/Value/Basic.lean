import Scriptlet.Stmt.Basic

/-!
# Values

What expressions evaluate to. Functions are objects: every evaluation of a function declaration
makes a new one, which is equal to itself only, so each carries an identity of its own.
-/

namespace Scriptlet

/-- What a callable object does: tell the time, or run a declared function in a frame below the one
it was declared in, which is known by its number. -/
inductive Function where
  | clock
  | declared (declaration : FunctionDeclaration) (closure : Nat)

/-- A callable object. -/
structure Callable where
  identity : Nat
  function : Function

namespace Callable

/-- The number of arguments that a callable takes. -/
def arity (callable : Callable) : Nat :=
  match callable.function with
  | .clock => 0
  | .declared declaration _ => declaration.arity

/-- A callable as it is printed. -/
def text (callable : Callable) : String :=
  match callable.function with
  | .clock => "<native fn clock>"
  | .declared declaration _ => "<fn " ++ declaration.name.lexeme ++ ">"

end Callable

/-- A value. -/
inductive Value where
  | nil
  | boolean (value : Bool)
  | number (value : Float)
  | string (value : String)
  | callable (object : Callable)

namespace Value

/-- The value that a literal denotes. -/
def ofLiteral : Literal → Value
  | .nil => nil
  | .boolean value => boolean value
  | .number value => number value
  | .string value => string value

/-- Only `nil` and `false` do not hold. -/
def isTruthy : Value → Bool
  | .nil | .boolean false => false
  | .boolean true | .number _ | .string _ | .callable _ => true

/-- Equality as programs see it: values of different types differ, numbers compare as doubles, and
callables by identity. -/
def equals : Value → Value → Bool
  | .nil, .nil => true
  | .boolean left, .boolean right => left = right
  | .number left, .number right => left == right
  | .string left, .string right => left = right
  | .callable left, .callable right => left.identity = right.identity
  | _, _ => false

/-- The text of a value, as it is printed and joined to strings. -/
def text : Value → String
  | .nil => "nil"
  | .boolean value => Literal.booleanText value
  | .number value => Number.text value
  | .string value => value
  | .callable object => object.text

end Value

end Scriptlet
