import Scriptlet.Proofs.Text.LineEnd
import Scriptlet.Proofs.Token.Tokenization

/-!
# Lines of tokens and of lexical errors

The line of a place in a source is one more than the number of line feeds before it. Scanning counts
line ends segment by segment. If no cluster holds a line feed apart from the two that end a line,
every token has the line of its first character. A string or a comment that is not closed takes the
rest of the source and is reported on the last line.
-/

namespace Scriptlet

open Text (Cluster Segmentation)

/-- The line of what stands after some characters. -/
def lineAfter (before : List Char) : Nat :=
  1 + before.count '\n'

theorem lineAfter_append (before text : List Char) :
    lineAfter (before ++ text) = lineAfter before + text.count '\n' := by
  rw [lineAfter, lineAfter, List.count_append, Nat.add_assoc]

/-- A segment with the characters of the source before it. -/
structure Place where
  before : List Char
  segment : Segment

namespace Segment

/-- Segments that follow some characters, at their places. -/
def placed (before : List Char) : List Segment → List Place
  | [] => []
  | segment :: following =>
      ⟨before, segment⟩ :: placed (before ++ Cluster.charsOf segment.text) following

/-- Every line feed of the clusters ends a line. -/
def LineFeedsApart (clusters : List Cluster) : Prop :=
  ∀ cluster ∈ clusters, '\n' ∈ cluster.chars → cluster ∈ lineEnds

theorem count_chars {cluster : Cluster} (apart : '\n' ∈ cluster.chars → cluster ∈ lineEnds) :
    cluster.chars.count '\n' = if isNewline cluster = true then 1 else 0 := by
  split
  next newline =>
      have ends := isNewline_iff.mp newline
      simp only [lineEnds, List.mem_cons, List.not_mem_nil, or_false] at ends
      rcases ends with rfl | rfl <;> rfl
  next no_newline =>
      apply List.count_eq_zero_of_not_mem
      intro feed
      exact no_newline (isNewline_iff.mpr (apart feed))

theorem countP_isNewline {clusters : List Cluster} (apart : LineFeedsApart clusters) :
    clusters.countP isNewline = (Cluster.charsOf clusters).count '\n' := by
  induction clusters with
  | nil => rfl
  | cons cluster clusters ih =>
      rw [LineFeedsApart, List.forall_mem_cons] at apart
      have chars_eq : Cluster.charsOf (cluster :: clusters)
          = cluster.chars ++ Cluster.charsOf clusters := List.flatMap_cons
      rw [List.countP_cons, ih apart.2, chars_eq, List.count_append, count_chars apart.1,
        Nat.add_comm]

/-- Line feeds are apart in every segmentation that cuts lines. -/
theorem lineFeedsApart_cut (segmentation : Segmentation) [segmentation.CutsLines]
    (text : List Char) : LineFeedsApart (segmentation.cut text) := by
  by_cases feed : '\n' ∈ text
  · obtain ⟨line, later, text_eq⟩ := List.append_of_mem feed
    subst text_eq
    have later_apart := lineFeedsApart_cut segmentation later
    by_cases returned : line.getLast? = some '\r'
    · obtain ⟨front, line_eq⟩ := List.getLast?_eq_some_iff.mp returned
      subst line_eq
      have front_apart := lineFeedsApart_cut segmentation front
      rw [List.append_assoc, List.singleton_append, Segmentation.CutsLines.cut_return_feed]
      exact List.forall_mem_append.mpr ⟨front_apart,
        List.forall_mem_cons.mpr ⟨fun _ => by decide, later_apart⟩⟩
    · have line_apart := lineFeedsApart_cut segmentation line
      rw [Segmentation.CutsLines.cut_feed returned]
      exact List.forall_mem_append.mpr ⟨line_apart,
        List.forall_mem_cons.mpr ⟨fun _ => by decide, later_apart⟩⟩
  · intro cluster cluster_mem inside
    have among : '\n' ∈ Cluster.charsOf (segmentation.cut text) :=
      List.mem_flatMap.mpr ⟨cluster, cluster_mem, inside⟩
    rw [segmentation.charsOf_cut] at among
    exact absurd among feed
termination_by text.length
decreasing_by
  all_goals
    subst_vars
    simp only [List.length_append, List.length_cons]
    omega

/-- The places of segments that make up a text are the places where their texts stand in it. -/
theorem prefix_of_mem_placed {segments : List Segment} {clusters : List Cluster}
    (divides : Divides segments clusters) {before : List Char} {place : Place}
    (place_mem : place ∈ placed before segments) :
    place.before ++ Cluster.charsOf place.segment.text <+: before ++ Cluster.charsOf clusters := by
  induction divides generalizing before with
  | nil => cases place_mem
  | @cons segment segments after _ _ ih =>
      rw [Cluster.charsOf_append, ← List.append_assoc]
      rcases List.mem_cons.mp place_mem with rfl | later
      · exact List.prefix_append _ _
      · exact ih later

end Segment

namespace Place

/-- What a token has of its place: the text of the segment, and the line of the place. -/
def Gives (place : Place) (token : Token) : Prop :=
  place.segment.Gives token ∧ token.line = lineAfter place.before

/-- What is reported at a place of a source: a character on the line of the place, what is not
closed on the last line. -/
def Reports (source : List Char) (place : Place) (error : LexicalError) : Prop :=
  place.segment.Reports error ∧
    match error with
    | .unexpectedCharacter line _ => line = lineAfter place.before
    | .unterminatedString line | .unterminatedComment line => line = lineAfter source

end Place

namespace Scan

open Segment (placed LineFeedsApart)

theorem lineAfter_segment {segment : Segment} (before : List Char)
    (apart : LineFeedsApart segment.text) :
    lineAfter before + segment.newlines
      = lineAfter (before ++ Cluster.charsOf segment.text) := by
  rw [lineAfter_append, Segment.newlines, Segment.countP_isNewline apart]

theorem tokens_placed {segments : List Segment} {clusters : List Cluster}
    (divides : Segment.Divides segments clusters) (apart : LineFeedsApart clusters)
    (before : List Char) :
    List.Forall₂ Place.Gives ((placed before segments).filter (·.segment.piece.isToken))
        (ofSegments (lineAfter before) segments).tokens.body ∧
      (ofSegments (lineAfter before) segments).tokens.last
        = .atEnd (lineAfter (before ++ Cluster.charsOf clusters)) := by
  induction divides generalizing before with
  | nil => exact ⟨.nil, by simp [ofSegments, Token.atEnd, Cluster.charsOf]⟩
  | @cons segment segments after _ _ ih =>
      rw [LineFeedsApart, List.forall_mem_append] at apart
      have tail := ih apart.2 (before ++ Cluster.charsOf segment.text)
      rw [← lineAfter_segment before apart.1, List.append_assoc, ← Cluster.charsOf_append] at tail
      rcases segment with ⟨piece, text⟩
      cases piece with
      | token kind => exact ⟨.cons ⟨⟨rfl, rfl⟩, rfl⟩ tail.1, tail.2⟩
      | _ => exact tail

theorem errors_placed {segments : List Segment} {clusters : List Cluster}
    (divides : Segment.Divides segments clusters) (apart : LineFeedsApart clusters)
    (before : List Char) :
    List.Forall₂ (Place.Reports (before ++ Cluster.charsOf clusters))
      ((placed before segments).filter (·.segment.piece.isFault))
      (ofSegments (lineAfter before) segments).errors := by
  induction divides generalizing before with
  | nil => exact .nil
  | @cons segment segments after fits divides ih =>
      rw [LineFeedsApart, List.forall_mem_append] at apart
      have tail := ih apart.2 (before ++ Cluster.charsOf segment.text)
      have line_eq := lineAfter_segment before apart.1
      rw [← line_eq, List.append_assoc, ← Cluster.charsOf_append] at tail
      cases fits with
      | unexpected => exact .cons ⟨⟨rfl, rfl⟩, rfl⟩ tail
      -- Nothing follows what is not closed.
      | openString | openComment =>
          rw [List.append_nil] at tail ⊢
          exact .cons ⟨rfl, line_eq⟩ tail
      | token | string | blank | lineComment | blockComment => exact tail

/-- The segments of a source stand at places in it, and the places say the lines: that of a token
and of an unexpected character is the line of its first character, the line of the end and of what
is not closed is the last one. The source may be cut in any way that keeps line feeds apart. -/
theorem lines_exact {source : String} {clusters : List Cluster}
    (whole : Cluster.text clusters = source) (apart : LineFeedsApart clusters) :
    ∃ segments : List Segment, Segment.Divides segments clusters ∧
      (∀ place ∈ placed [] segments,
        place.before ++ Cluster.charsOf place.segment.text <+: source.toList) ∧
      List.Forall₂ Place.Gives ((placed [] segments).filter (·.segment.piece.isToken))
        (ofClusters clusters).tokens.body ∧
      (ofClusters clusters).tokens.last = .atEnd (lineAfter source.toList) ∧
      List.Forall₂ (Place.Reports source.toList)
        ((placed [] segments).filter (·.segment.piece.isFault)) (ofClusters clusters).errors := by
  have divides : Segment.Divides (Segment.ofClusters clusters) clusters :=
    Segment.divides_iff.mpr rfl
  have chars_eq : Cluster.charsOf clusters = source.toList := by
    rw [← whole, Cluster.text, String.toList_ofList]
  obtain ⟨tokens, last⟩ := tokens_placed divides apart []
  have errors := errors_placed divides apart []
  rw [List.nil_append, chars_eq] at last errors
  refine ⟨_, divides, ?_, tokens, last, errors⟩
  intro place place_mem
  have placed := Segment.prefix_of_mem_placed divides place_mem
  rwa [List.nil_append, chars_eq] at placed

/-- A source with a string over three lines and one that is not closed. -/
def unevenLines : String := "a \"\r\n\n\" b // c\n$ \"\n"

/-- A string has the line on which it opens, and what follows it the line on which it closes. -/
theorem lines_exact_unevenLines :
    (ofString .graphemes unevenLines).tokens.body.map (·.line) = [1, 1, 3] ∧
      (ofString .graphemes unevenLines).tokens.last = .atEnd (lineAfter unevenLines.toList) ∧
      (ofString .graphemes unevenLines).errors
        = [.unexpectedCharacter 4 "$", .unterminatedString (lineAfter unevenLines.toList)] := by
  have whole : Cluster.text (Segmentation.graphemes.cut unevenLines.toList) = unevenLines := by
    rw [Cluster.text, Segmentation.charsOf_cut, String.ofList_toList]
  have apart : LineFeedsApart (Segmentation.graphemes.cut unevenLines.toList) :=
    Segment.lineFeedsApart_cut .graphemes unevenLines.toList
  obtain ⟨_, -, -, -, last, -⟩ := lines_exact whole apart
  exact ⟨by decide +kernel, last, by decide +kernel⟩

end Scan

end Scriptlet
