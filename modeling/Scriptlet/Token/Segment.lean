import Scriptlet.Text.Cluster
import Scriptlet.Token.Kind

/-!
# Lexical segments

A source, read as clusters, is cut from left to right into segments without gap or overlap. Each
segment is a token, a piece of layout, or a fault. A token takes the longest text that forms one.

* `Segment.measure` decides the first segment of a text by its piece and the number of clusters
  after the first one;
* `Segment.ofClusters` cuts the whole text.
-/

namespace Scriptlet

open Text (Cluster)

/-- What a segment of a source is. -/
inductive Piece where
  | token (kind : Token.Kind)
  | blank
  | lineComment
  | blockComment
  | unexpected
  | openString
  | openComment
  deriving DecidableEq, Repr

/-- A piece with its text. -/
structure Segment where
  piece : Piece
  text : List Cluster
  deriving DecidableEq, Repr

namespace Segment

/-- Whether a cluster is this character alone. -/
def isChar (char : Char) (cluster : Cluster) : Bool :=
  cluster = .single char

/-- Whether a cluster ends a line: a line feed, alone or after a carriage return. -/
def isNewline (cluster : Cluster) : Bool :=
  isChar '\n' cluster || cluster = ⟨'\r', ['\n']⟩

/-- Whether a cluster is layout between tokens. -/
def isBlank (cluster : Cluster) : Bool :=
  isNewline cluster || isChar ' ' cluster || isChar '\r' cluster || isChar '\t' cluster

/-- Whether a cluster is an ASCII digit alone. -/
def isDigit (cluster : Cluster) : Bool :=
  cluster.rest = [] && cluster.first.isDigit

/-- Whether a cluster can start a name: an ASCII letter or an underscore, alone. -/
def isLetter (cluster : Cluster) : Bool :=
  cluster.rest = [] && (cluster.first.isAlpha || cluster.first = '_')

/-- Whether a cluster can continue a name. -/
def isWordPart (cluster : Cluster) : Bool :=
  isLetter cluster || isDigit cluster

/-- The kind of the symbol that a cluster is when it is one character. -/
def symbol? (cluster : Cluster) : Option Token.Kind :=
  if cluster.rest = [] then
    Token.Kind.symbols.find? fun kind => kind.spelling? = some (.singleton cluster.first)
  else none

/-- The kind of the symbol that a following `=` makes of a symbol. -/
def withEqual? : Token.Kind → Option Token.Kind
  | .bang => some .bangEqual
  | .equal => some .equalEqual
  | .less => some .lessEqual
  | .greater => some .greaterEqual
  | _ => none

/-- The length of a fraction: a point and the digits after it, of which there must be one. -/
def fractionLength : List Cluster → Nat
  | point :: digits =>
      let count := (digits.takeWhile isDigit).length
      if isChar '.' point ∧ 0 < count then count + 1 else 0
  | [] => 0

/-- How many clusters after its first digit belong to a number. -/
def numberLength (following : List Cluster) : Nat :=
  let count := (following.takeWhile isDigit).length
  count + fractionLength (following.drop count)

/-- How many clusters the rest of a block comment takes, its closing mark included. -/
def closingLength? : List Cluster → Option Nat
  | star :: slash :: following =>
      if isChar '*' star ∧ isChar '/' slash then some 2
      else (closingLength? (slash :: following)).map (· + 1)
  | _ => none

/-- What starts with a slash. -/
def measureSlash : List Cluster → Piece × Nat
  | second :: following =>
      if isChar '/' second then
        (.lineComment, (following.takeWhile (!isNewline ·)).length + 1)
      else if isChar '*' second then
        match closingLength? following with
        | some length => (.blockComment, length + 1)
        | none => (.openComment, following.length + 1)
      else (.token .slash, 0)
  | [] => (.token .slash, 0)

/-- What starts with a quote: a string takes everything up to the next quote. -/
def measureString (following : List Cluster) : Piece × Nat :=
  let length := (following.takeWhile (!isChar '"' ·)).length
  if length < following.length then (.token .string, length + 1) else (.openString, length)

/-- What starts with a letter: a name, or the reserved word with its text. -/
def measureWord (first : Cluster) (following : List Cluster) : Piece × Nat :=
  let tail := following.takeWhile isWordPart
  let kind := (Token.Kind.keyword? (Cluster.text (first :: tail))).getD .identifier
  (.token kind, tail.length)

/-- What starts with a symbol other than a slash: a following `=` is part of some. -/
def measureSymbol (kind : Token.Kind) (following : List Cluster) : Piece × Nat :=
  match withEqual? kind, following.head? with
  | some longer, some next => if isChar '=' next then (.token longer, 1) else (.token kind, 0)
  | _, _ => (.token kind, 0)

/-- The first segment of a text: its piece, and how many clusters after the first it takes. -/
def measure (first : Cluster) (following : List Cluster) : Piece × Nat :=
  if isBlank first then (.blank, 0)
  else if isChar '"' first then measureString following
  else if isDigit first then (.token .number, numberLength following)
  else if isLetter first then measureWord first following
  else
    match symbol? first with
    | some .slash => measureSlash following
    | some kind => measureSymbol kind following
    | none => (.unexpected, 0)

/-- The segments of a text, from left to right. -/
def ofClusters : List Cluster → List Segment
  | [] => []
  | first :: following =>
      let (piece, length) := measure first following
      ⟨piece, first :: following.take length⟩ :: ofClusters (following.drop length)
termination_by clusters => clusters.length
decreasing_by simp only [List.length_drop, List.length_cons]; omega

/-- How many lines end in a segment. -/
def newlines (segment : Segment) : Nat :=
  segment.text.countP isNewline

end Segment

end Scriptlet
