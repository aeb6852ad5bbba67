import Mathlib.Data.List.Forall2
import Scriptlet.Proofs.Token.LongestMatch
import Scriptlet.Text.Grapheme

/-!
# What a scan consists of

A scan has one token for each token of the source and one error for each fault, in the order in
which they stand there, and nothing else. The kind of a word is looked up in the table of reserved
words, and no other token can be taken for one of them.
-/

namespace Scriptlet

open Text (Cluster Segmentation)
open Text.Cluster (single)

/-- Whether a piece is a token. -/
def Piece.isToken : Piece → Bool
  | .token _ => true
  | _ => false

namespace Segment

/-- What a token has of the segment that it is read from. -/
def Gives (segment : Segment) (token : Token) : Prop :=
  segment.piece = .token token.kind ∧ token.lexeme = Cluster.text segment.text

/-- What is reported for a segment that is a fault. -/
def Reports (segment : Segment) : LexicalError → Prop
  | .unexpectedCharacter _ character =>
      segment.piece = .unexpected ∧ character = Cluster.text segment.text
  | .unterminatedString _ => segment.piece = .openString
  | .unterminatedComment _ => segment.piece = .openComment

/-- Reserved words start with a letter. -/
theorem isLetter_of_keyword {first : Cluster} {others : List Cluster} {kind : Token.Kind}
    (alone : first.rest = [])
    (found : Token.Kind.keyword? (Cluster.text (first :: others)) = some kind) :
    isLetter first = true := by
  have table : ∀ kind ∈ Token.Kind.reserved, ∀ spelling ∈ kind.spelling?,
      spelling.toList.head?.all Char.isAlpha = true := by
    decide
  rw [Token.Kind.keyword?] at found
  have holds := List.find?_some found
  have alpha := table kind (List.mem_of_find?_eq_some found) _ (of_decide_eq_true holds)
  have head_eq : (Cluster.text (first :: others)).toList.head? = some first.first := by
    simp [Cluster.text, Cluster.charsOf, Cluster.chars]
  rw [head_eq, Option.all_some] at alpha
  simp [isLetter, alone, alpha]

/-- The kind of a token is that of a reserved word exactly if its text is this word. -/
theorem Fits.kind_eq_iff {kind reserved : Token.Kind} {text after : List Cluster}
    (fits : Fits ⟨.token kind, text⟩ after) (reserved_mem : reserved ∈ Token.Kind.reserved) :
    kind = reserved ↔ Token.Kind.keyword? (Cluster.text text) = some reserved := by
  have of_other : ∀ first others, first.rest = [] → ¬isLetter first = true →
      kind ∉ Token.Kind.reserved →
      (kind = reserved ↔ Token.Kind.keyword? (Cluster.text (first :: others)) = some reserved) := by
    intro first others alone no_letter not_reserved
    apply iff_of_false
    · rintro rfl
      exact not_reserved reserved_mem
    · intro found
      exact no_letter (isLetter_of_keyword alone found)
  have no_symbol_reserved : ∀ symbol ∈ Token.Kind.symbols, symbol ∉ Token.Kind.reserved := by
    decide
  cases fits with
  | string => exact of_other _ _ rfl (by decide) (by decide)
  | token isLongest _ =>
      obtain ⟨first, others, rfl, cases⟩ := isLongest.forms.exists_first
      cases cases with
      | digit digit kind_eq =>
          subst kind_eq
          have no_letter := fun letter => not_isDigit_of_isLetter letter digit
          simp only [isDigit, Bool.and_eq_true, decide_eq_true_eq] at digit
          exact of_other _ _ digit.1 no_letter (by decide)
      | letter _ _ kind_eq =>
          rw [kind_eq]
          cases Token.Kind.keyword? (Cluster.text (first :: others)) with
          | none =>
              refine iff_of_false ?_ (by simp)
              rintro rfl
              exact absurd reserved_mem (by decide)
          | some word => rw [Option.getD_some, Option.some.injEq]
      | symbol found =>
          exact of_other _ _ (spelling_of_symbol found).1 (not_isLetter_of_symbol found)
            (no_symbol_reserved _ (mem_symbols_of_symbol found))
      | withEqual found extended =>
          exact of_other _ _ (spelling_of_symbol found).1 (not_isLetter_of_symbol found)
            (no_symbol_reserved _ (mem_symbols_of_withEqual extended))

theorem Divides.exists_fits {segments : List Segment} {clusters : List Cluster}
    (divides : Divides segments clusters) {segment : Segment} (segment_mem : segment ∈ segments) :
    ∃ after, segment.Fits after := by
  induction divides with
  | nil => cases segment_mem
  | @cons head _ after fits _ ih =>
      rcases List.mem_cons.mp segment_mem with rfl | later
      · exact ⟨after, fits⟩
      · exact ih later

end Segment

namespace Scan

open Segment

theorem forall₂_tokens (line : Nat) (segments : List Segment) :
    List.Forall₂ Gives (segments.filter (·.piece.isToken))
      (ofSegments line segments).tokens.body := by
  induction segments generalizing line with
  | nil => exact .nil
  | cons segment segments ih =>
      have tail := ih (line + segment.newlines)
      rcases segment with ⟨piece, text⟩
      cases piece with
      | token kind => exact .cons ⟨rfl, rfl⟩ tail
      | _ => exact tail

theorem forall₂_errors (line : Nat) (segments : List Segment) :
    List.Forall₂ Reports (segments.filter (·.piece.isFault)) (ofSegments line segments).errors := by
  induction segments generalizing line with
  | nil => exact .nil
  | cons segment segments ih =>
      have tail := ih (line + segment.newlines)
      rcases segment with ⟨piece, text⟩
      cases piece with
      | unexpected => exact .cons ⟨rfl, rfl⟩ tail
      | openString | openComment => exact .cons rfl tail
      | token | blank | lineComment | blockComment => exact tail

theorem kind_eq_iff_of_mem {clusters : List Cluster} {token : Token}
    (token_mem : token ∈ (ofClusters clusters).tokens.body) {kind : Token.Kind}
    (kind_mem : kind ∈ Token.Kind.reserved) :
    token.kind = kind ↔ Token.Kind.keyword? token.lexeme = some kind := by
  obtain ⟨kind, text, line, segment_mem, rfl⟩ := exists_segment_of_mem token_mem
  obtain ⟨after, fits⟩ := (divides_iff.mpr rfl).exists_fits segment_mem
  exact fits.kind_eq_iff kind_mem

/-- Scanning makes up a source, however it is cut into clusters, of segments of the lexical grammar,
in the only way there is. Each token among them gives one token with the text of the segment, and
each fault is reported once. -/
theorem longest_match :
    (∀ clusters : List Cluster, ∃ segments : List Segment,
      Divides segments clusters ∧ (∀ other, Divides other clusters → other = segments) ∧
      List.Forall₂ Gives (segments.filter (·.piece.isToken)) (ofClusters clusters).tokens.body ∧
      List.Forall₂ Reports (segments.filter (·.piece.isFault)) (ofClusters clusters).errors ∧
      ∀ token ∈ (ofClusters clusters).tokens.body, ∀ kind ∈ Token.Kind.reserved,
        token.kind = kind ↔ Token.Kind.keyword? token.lexeme = some kind) ∧
    ∀ (segmentation : Segmentation) (source : String),
      Cluster.text (segmentation.cut source.toList) = source ∧
        ofString segmentation source = ofClusters (segmentation.cut source.toList) := by
  refine ⟨?_, ?_⟩
  · intro clusters
    exact ⟨Segment.ofClusters clusters, divides_iff.mpr rfl, fun _ => divides_iff.mp,
      forall₂_tokens 1 _, forall₂_errors 1 _, fun _ token_mem _ => kind_eq_iff_of_mem token_mem⟩
  · intro segmentation source
    refine ⟨?_, rfl⟩
    rw [Cluster.text, segmentation.charsOf_cut, String.ofList_toList]

/-- A fraction has one point, and a comment does not close with the star that opens it. -/
example : (ofString .graphemes "1.5.2. /*/").tokens.body.map (·.lexeme) = ["1.5", ".", "2", "."] ∧
    (ofString .graphemes "1.5.2. /*/").errors = [.unterminatedComment 1] := by
  decide +kernel

end Scan

end Scriptlet
