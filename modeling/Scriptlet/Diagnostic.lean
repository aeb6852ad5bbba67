import Scriptlet.Token.Scan

/-!
# Diagnostics

What users are told: each diagnostic has a kind, a line, a place on that line, and a message. The
list of diagnostics grows until it is reset; two flags remember which kinds were reported since.
-/

namespace Scriptlet

/-- When a fault was found: before evaluation or during it. -/
inductive Diagnostic.Kind where
  | static
  | runtime
  deriving DecidableEq, Repr

/-- A report to the user. -/
structure Diagnostic where
  kind : Diagnostic.Kind
  line : Nat
  location : String
  message : String
  deriving DecidableEq, Repr

namespace Diagnostic

/-- Where on its line a token stands. -/
def locationOf (token : Token) : String :=
  if token.kind = .endOfInput then " at end" else " at '" ++ token.lexeme ++ "'"

/-- A static error of which only the line is known. -/
def ofLine (line : Nat) (message : String) : Diagnostic :=
  ⟨.static, line, "", message⟩

/-- A report at a token. -/
def ofToken (kind : Kind) (token : Token) (message : String) : Diagnostic :=
  ⟨kind, token.line, locationOf token, message⟩

/-- The report of a lexical error. -/
def ofLexicalError (error : LexicalError) : Diagnostic :=
  ofLine error.line error.message

/-- A diagnostic as one line of text. -/
def text (diagnostic : Diagnostic) : String :=
  "[line " ++ diagnostic.line.repr ++ "] Error" ++ diagnostic.location ++ ": "
    ++ diagnostic.message

end Diagnostic

/-- The diagnostics since the last reset. -/
structure Diagnostics where
  reported : List Diagnostic
  hadError : Bool
  hadRuntimeError : Bool
  deriving DecidableEq, Repr

namespace Diagnostics

/-- Nothing reported since the last reset. -/
def empty : Diagnostics :=
  ⟨[], false, false⟩

/-- Adds a diagnostic at the end and raises the flag of its kind. -/
def report (diagnostics : Diagnostics) (diagnostic : Diagnostic) : Diagnostics where
  reported := diagnostics.reported ++ [diagnostic]
  hadError := diagnostics.hadError || diagnostic.kind = .static
  hadRuntimeError := diagnostics.hadRuntimeError || diagnostic.kind = .runtime

/-- Adds diagnostics one after the other. -/
def reportAll (diagnostics : Diagnostics) (added : List Diagnostic) : Diagnostics :=
  added.foldl report diagnostics

/-- The diagnostics as lines of text, in the order in which they were reported. -/
def texts (diagnostics : Diagnostics) : List String :=
  diagnostics.reported.map Diagnostic.text

end Diagnostics

end Scriptlet
