import Scriptlet.Token.Basic
import Scriptlet.Token.Segment

/-!
# Scanning

The tokens and the lexical errors of a source are read off its segments; the line of a segment is
one more than the number of line ends before it. Sources are cut into clusters by a given
segmentation.
-/

namespace Scriptlet

open Text (Cluster Segmentation)

/-- A fault in the source text, with its line. -/
inductive LexicalError where
  | unexpectedCharacter (line : Nat) (character : String)
  | unterminatedString (line : Nat)
  | unterminatedComment (line : Nat)
  deriving DecidableEq, Repr

namespace LexicalError

/-- The line a lexical error is reported at. -/
def line : LexicalError → Nat
  | .unexpectedCharacter line _ | .unterminatedString line | .unterminatedComment line => line

/-- What a lexical error is reported as. -/
def message : LexicalError → String
  | .unexpectedCharacter _ character => "Unexpected character '" ++ character ++ "'."
  | .unterminatedString _ => "Unterminated string."
  | .unterminatedComment _ => "Unterminated block comment."

end LexicalError

namespace Token

/-- The value that the text of a token of some kind denotes. A string is what stands between its
quotes. -/
def literalOf (text : List Cluster) : Kind → Option Literal
  | .number => some (.number (Decimal.ofNumeral (Cluster.charsOf text)).toFloat)
  | .string => some (.string (Cluster.text (text.drop 1).dropLast))
  | .trueWord => some (.boolean true)
  | .falseWord => some (.boolean false)
  | .nilWord => some .nil
  | _ => none

/-- The token of a kind with a text. -/
def ofClusters (kind : Kind) (text : List Cluster) (line : Nat) : Token :=
  ⟨kind, Cluster.text text, literalOf text kind, line⟩

end Token

/-- What scanning a source gives. -/
structure Scan where
  tokens : Tokens
  errors : List LexicalError
  deriving DecidableEq

namespace Scan

/-- A scan with a token in front. -/
def withToken (scan : Scan) (token : Token) : Scan :=
  { scan with tokens := { scan.tokens with body := token :: scan.tokens.body } }

/-- A scan with an error in front. -/
def withError (scan : Scan) (error : LexicalError) : Scan :=
  { scan with errors := error :: scan.errors }

/-- Reads segments that start on a line. A token has the line on which it starts; text that is not
closed is reported on the line where it stops. -/
def ofSegments (line : Nat) : List Segment → Scan
  | [] => ⟨⟨[], Token.atEnd line⟩, []⟩
  | segment :: following =>
      let after := line + segment.newlines
      let scan := ofSegments after following
      match segment.piece with
      | .token kind => scan.withToken (.ofClusters kind segment.text line)
      | .unexpected => scan.withError (.unexpectedCharacter line (Cluster.text segment.text))
      | .openString => scan.withError (.unterminatedString after)
      | .openComment => scan.withError (.unterminatedComment after)
      | .blank | .lineComment | .blockComment => scan

/-- Scans clusters, which start on the first line. -/
def ofClusters (clusters : List Cluster) : Scan :=
  ofSegments 1 (Segment.ofClusters clusters)

/-- Scans a source. -/
def ofString (segmentation : Segmentation) (source : String) : Scan :=
  ofClusters (segmentation.cut source.toList)

end Scan

end Scriptlet
