import Scriptlet.Proofs.Text.Boundary
import Scriptlet.Proofs.Token.Again
import Scriptlet.Proofs.Token.Line
import Scriptlet.Token.Scan

/-!
# Tokens written as text

Texts of tokens can be put together when none starts with what would continue the token in front of
it. `Writes` keeps what is needed for that: how the clusters of a text are cut, which tokens are
read from them, and what may follow. Lines are left out: they are not part of what is written.
-/

namespace Scriptlet

open Text (Cluster Segmentation)

namespace Segment

/-- The token that a segment is, without its line. -/
def token? (segment : Segment) : Option Token :=
  match segment.piece with
  | .token kind => some (.ofClusters kind segment.text 0)
  | _ => none

/-- The first segment of a text is what its measure says. -/
theorem ofClusters_of_measure {first : Cluster} {others following : List Cluster} {piece : Piece}
    (read : measure first (others ++ following) = (piece, others.length)) :
    ofClusters (first :: (others ++ following))
      = ⟨piece, first :: others⟩ :: ofClusters following := by
  simp only [ofClusters, read, List.take_left, List.drop_left]

end Segment

namespace Scan

/-- The tokens of segments, up to lines, do not depend on where the segments start. -/
theorem tokens_ofSegments (line : Nat) (segments : List Segment) :
    (ofSegments line segments).tokens.body.map Token.withoutLine
      = segments.filterMap Segment.token? := by
  induction segments generalizing line with
  | nil => rfl
  | cons segment segments ih =>
      have tail := ih (line + segment.newlines)
      rcases segment with ⟨piece, text⟩
      cases piece with
      | token kind =>
          simp only [ofSegments, withToken, List.map_cons, tail]
          rfl
      | _ => exact tail

theorem errors_ofSegments_eq_nil_iff {line : Nat} {segments : List Segment} :
    (ofSegments line segments).errors = []
      ↔ ∀ segment ∈ segments, segment.piece.isFault = false := by
  induction segments generalizing line with
  | nil => simp [ofSegments]
  | cons segment segments ih =>
      rcases segment with ⟨piece, text⟩
      cases piece <;> simp [ofSegments, withToken, withError, Piece.isFault, ih]

/-- Nothing is read from the empty source. -/
theorem ofString_empty (segmentation : Segmentation) :
    ofString segmentation "" = ⟨⟨[], .atEnd 1⟩, []⟩ := by
  rw [ofString, show "".toList = [] from rfl, segmentation.cut_nil, ofClusters, Segment.ofClusters,
    ofSegments]

end Scan

/-- A text that is read as some tokens, up to lines, in front of anything that does not start with
a cluster of some property. -/
structure Writes (segmentation : Segmentation) (text : List Cluster) (tokens : List Token)
    (continues : Cluster → Bool) : Prop where
  bounded : segmentation.Bounded text
  read : ∀ following, Segment.Lacks continues following → ∃ segments,
    Segment.ofClusters (text ++ following) = segments ++ Segment.ofClusters following ∧
      segments.filterMap Segment.token? = tokens.map Token.withoutLine ∧
      ∀ segment ∈ segments, segment.piece.isFault = false

namespace Writes

variable {segmentation : Segmentation} {text other : List Cluster} {tokens others : List Token}
  {continues otherContinues : Cluster → Bool}

theorem lacks_append {property : Cluster → Bool} (bounded : segmentation.Bounded text)
    (lacks : Segment.Lacks property text) (following : List Cluster) :
    Segment.Lacks property (text ++ following) := by
  cases text with
  | nil => exact absurd rfl bounded.ne_nil
  | cons head text => exact lacks

/-- Texts can be put together when the second does not continue the first. -/
theorem append [segmentation.IsLocal] (left : Writes segmentation text tokens continues)
    (right : Writes segmentation other others otherContinues)
    (apart : Segment.Lacks continues other) :
    Writes segmentation (text ++ other) (tokens ++ others) otherContinues where
  bounded := left.bounded.append right.bounded
  read := by
    intro following lacks
    rcases right.read following lacks with ⟨rightSegments, rightCut, rightTokens, rightSound⟩
    rcases left.read (other ++ following) (lacks_append right.bounded apart following) with
      ⟨leftSegments, leftCut, leftTokens, leftSound⟩
    refine ⟨leftSegments ++ rightSegments, ?_, ?_, ?_⟩
    · rw [List.append_assoc, leftCut, rightCut, List.append_assoc]
    · rw [List.filterMap_append, leftTokens, rightTokens, List.map_append]
    · intro segment segment_mem
      rcases List.mem_append.mp segment_mem with left_mem | right_mem
      · exact leftSound segment left_mem
      · exact rightSound segment right_mem

/-- A text stays what it is in front of less. -/
theorem weaken (writes : Writes segmentation text tokens continues)
    (implies : ∀ next, continues next = true → otherContinues next = true) :
    Writes segmentation text tokens otherContinues where
  bounded := writes.bounded
  read following lacks := writes.read following (lacks.imp implies)

/-- Tokens that are the same up to lines are written alike. -/
theorem congr (writes : Writes segmentation text tokens continues)
    (same : tokens.map Token.withoutLine = others.map Token.withoutLine) :
    Writes segmentation text others continues where
  bounded := writes.bounded
  read following lacks := by
    rw [← same]
    exact writes.read following lacks

/-- Layout writes nothing. -/
theorem layout {char : Char} (plain : Text.IsPlain char)
    (blank : Segment.isBlank (.single char) = true) :
    Writes segmentation [.single char] [] fun _ => false where
  bounded := Segmentation.bounded_single plain
  read following _ := by
    refine ⟨[⟨.blank, [.single char]⟩], ?_, rfl, by simp [Piece.isFault]⟩
    have read : Segment.measure (.single char) ([] ++ following)
        = (.blank, ([] : List Cluster).length) := by
      rw [Segment.measure, if_pos blank]
      rfl
    exact Segment.ofClusters_of_measure read

/-- The clusters of a token write this token. -/
theorem of_measure {first : Cluster} {following : List Cluster} {kind : Token.Kind} {length : Nat}
    (read : Segment.measure first following = (.token kind, length))
    (bounded : segmentation.Bounded (first :: following.take length)) (line : Nat) :
    Writes segmentation (first :: following.take length)
      [.ofClusters kind (first :: following.take length) line] (Segment.continues kind) where
  bounded := bounded
  read := by
    intro other lacks
    refine ⟨[⟨.token kind, first :: following.take length⟩], ?_, rfl, by simp [Piece.isFault]⟩
    have length_eq : (following.take length).length = length :=
      List.length_take_of_le (Segment.length_le_of_measure read)
    apply Segment.ofClusters_of_measure
    rw [length_eq]
    exact Segment.measure_again read lacks

/-- A text that writes tokens is scanned as these tokens, and nothing is reported. -/
theorem scan (writes : Writes segmentation text tokens continues) :
    (Scan.ofString segmentation (Cluster.text text)).errors = [] ∧
      (Scan.ofString segmentation (Cluster.text text)).tokens.body.map Token.withoutLine
        = tokens.map Token.withoutLine := by
  rcases writes.read [] (Segment.lacks_nil continues) with ⟨segments, cut_eq, tokens_eq, sound⟩
  have segments_eq :
      Segment.ofClusters (segmentation.cut (Cluster.text text).toList) = segments := by
    rw [Cluster.text, String.toList_ofList, writes.bounded.cut_eq]
    rw [List.append_nil] at cut_eq
    rw [cut_eq]
    simp [Segment.ofClusters]
  rw [Scan.ofString, Scan.ofClusters, segments_eq]
  exact ⟨Scan.errors_ofSegments_eq_nil_iff.mpr sound,
    (Scan.tokens_ofSegments 1 segments).trans tokens_eq⟩

end Writes

end Scriptlet
