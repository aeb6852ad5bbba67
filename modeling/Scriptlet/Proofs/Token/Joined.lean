import Mathlib.Data.List.DropRight
import Scriptlet.Proofs.Text.Boundary
import Scriptlet.Proofs.Token.LineEnd
import Scriptlet.Proofs.Token.Writing

/-!
# Lines scanned together

If nothing is reported in a line, the segments of a text that starts with this line are those of the
line, its line end, and those of the rest, with any segmentation that cuts lines. A carriage return
at the end of a line is layout or part of a comment, so it makes no difference to the tokens.
-/

namespace Scriptlet

open Text (Cluster Segmentation)

namespace Segment

/-- Whether no piece of a text is reported. -/
def IsSound (text : List Cluster) : Prop :=
  ∀ segment ∈ ofClusters text, segment.piece.isFault = false

/-- The tokens of a text, without lines. -/
def tokensOf (text : List Cluster) : List Token :=
  (ofClusters text).filterMap token?

theorem ofClusters_cons_append {first : Cluster} {following later : List Cluster} {piece : Piece}
    {length : Nat} (read : measure first (following ++ later) = (piece, length))
    (fits : length ≤ following.length) :
    ofClusters (first :: (following ++ later))
      = ⟨piece, first :: following.take length⟩ :: ofClusters (following.drop length ++ later) := by
  simp only [ofClusters, read, List.take_append_of_le_length fits,
    List.drop_append_of_le_length fits]

theorem ofClusters_cons {first : Cluster} {following : List Cluster} {piece : Piece}
    {length : Nat} (read : measure first following = (piece, length)) :
    ofClusters (first :: following)
      = ⟨piece, first :: following.take length⟩ :: ofClusters (following.drop length) := by
  simp only [ofClusters, read]

/-- A sound line is cut in front of other lines as it is alone. -/
theorem ofClusters_line {text : List Cluster} (sound : IsSound text) {stop : Cluster}
    (newline : isNewline stop = true) (later : List Cluster) :
    ofClusters (text ++ stop :: later)
      = ofClusters text ++ ⟨.blank, [stop]⟩ :: ofClusters later := by
  have blank : isBlank stop = true := by simp [isBlank, newline]
  fun_induction ofClusters text with
  | case1 =>
      have read : measure stop later = (.blank, 0) := by rw [measure, if_pos blank]
      exact ofClusters_cons read
  | case2 first following piece length read ih =>
      rw [IsSound, ofClusters_cons read, List.forall_mem_cons] at sound
      have longer := measure_before blank read sound.1 (.inl newline) later
      rw [List.cons_append, ofClusters_cons_append longer (length_le_of_measure read),
        ih sound.2, List.cons_append]

theorem isSound_cons_iff {first : Cluster} {following : List Cluster} :
    IsSound (first :: following)
      ↔ (measure first following).1.isFault = false ∧
        IsSound (following.drop (measure first following).2) := by
  rw [IsSound, ofClusters_cons rfl, List.forall_mem_cons]
  rfl

/-- A carriage return at the end of a sound line can be left out. -/
theorem isSound_of_return {text : List Cluster} (sound : IsSound (text ++ [.single '\r'])) :
    IsSound text ∧ tokensOf (text ++ [.single '\r']) = tokensOf text := by
  have return_eq : ofClusters [.single '\r'] = [⟨.blank, [.single '\r']⟩] := by
    rw [ofClusters_cons (show measure (.single '\r') [] = (.blank, 0) from rfl)]
    simp [ofClusters]
  fun_induction ofClusters text with
  | case1 =>
      exact ⟨by simp [IsSound, ofClusters], by simp [tokensOf, return_eq, ofClusters, token?]⟩
  | case2 first following piece length read ih =>
      rw [List.cons_append] at sound ⊢
      have fits := length_le_of_measure read
      have no_fault : piece.isFault = false := by
        cases fault : piece.isFault with
        | false => rfl
        | true =>
            have still : (measure first (following ++ [.single '\r'])).1.isFault = true :=
              isFault_measure_return (by rw [read]; exact fault)
            rw [(isSound_cons_iff.mp sound).1] at still
            cases still
      have goes_on (longer : measure first (following ++ [.single '\r']) = (piece, length)) :
          IsSound (first :: following) ∧
            tokensOf (first :: (following ++ [.single '\r'])) = tokensOf (first :: following) := by
        have later_sound := (isSound_cons_iff.mp sound).2
        rw [longer, List.drop_append_of_le_length fits] at later_sound
        rcases ih later_sound with ⟨shorter_sound, tokens_eq⟩
        refine ⟨isSound_cons_iff.mpr (by rw [read]; exact ⟨no_fault, shorter_sound⟩), ?_⟩
        simp only [tokensOf] at tokens_eq
        simp only [tokensOf, ofClusters_cons_append longer fits, ofClusters_cons read,
          List.filterMap_cons, tokens_eq]
      by_cases comment : piece = .lineComment
      · subst comment
        rcases measure_comment_return read with longer | ⟨whole, longer⟩
        · exact goes_on longer
        · have nothing_left : following.drop length = [] := by rw [whole, List.drop_length]
          have nothing_added : (following ++ [Cluster.single '\r']).drop (length + 1) = [] := by
            rw [whole, List.drop_eq_nil_iff, List.length_append]
            exact Nat.le_refl _
          refine ⟨isSound_cons_iff.mpr ?_, ?_⟩
          · rw [read, nothing_left]
            exact ⟨rfl, by simp [IsSound, ofClusters]⟩
          · rw [tokensOf, tokensOf, ofClusters_cons longer, ofClusters_cons read, nothing_left,
              nothing_added]
            rfl
      · exact goes_on (measure_before rfl read no_fault (.inr comment) [])

variable {segmentation : Segmentation} [segmentation.CutsLines]

/-- A sound line and what follows its line end are read one after the other. -/
theorem isSound_line {line later : List Char} (line_sound : IsSound (segmentation.cut line))
    (later_sound : IsSound (segmentation.cut later)) :
    IsSound (segmentation.cut (line ++ '\n' :: later)) ∧
      tokensOf (segmentation.cut (line ++ '\n' :: later))
        = tokensOf (segmentation.cut line) ++ tokensOf (segmentation.cut later) := by
  have joined {text : List Cluster} (text_sound : IsSound text) {stop : Cluster}
      (newline : isNewline stop = true) :
      IsSound (text ++ stop :: segmentation.cut later) ∧
        tokensOf (text ++ stop :: segmentation.cut later)
          = tokensOf text ++ tokensOf (segmentation.cut later) := by
    rw [IsSound, tokensOf, ofClusters_line text_sound newline]
    refine ⟨?_, List.filterMap_append⟩
    exact List.forall_mem_append.mpr ⟨text_sound, List.forall_mem_cons.mpr ⟨rfl, later_sound⟩⟩
  by_cases returned : line.getLast? = some '\r'
  · rcases List.getLast?_eq_some_iff.mp returned with ⟨front, rfl⟩
    rw [Segmentation.CutsLines.cut_return] at line_sound ⊢
    rcases isSound_of_return line_sound with ⟨front_sound, tokens_eq⟩
    rw [tokens_eq, List.append_assoc]
    rw [List.singleton_append, Segmentation.CutsLines.cut_return_feed]
    exact joined front_sound rfl
  · rw [Segmentation.CutsLines.cut_feed returned]
    exact joined line_sound rfl

/-- What is not seen at the end of a line can be left out. -/
theorem isSound_trim {line : List Char} (no_feed : '\n' ∉ line)
    (sound : IsSound (segmentation.cut line)) :
    IsSound (segmentation.cut (line.rdropWhile fun char => char = '\r' || char = '\n')) ∧
      tokensOf (segmentation.cut (line.rdropWhile fun char => char = '\r' || char = '\n'))
        = tokensOf (segmentation.cut line) := by
  induction line using List.reverseRecOn with
  | nil => exact ⟨sound, rfl⟩
  | append_singleton front last ih =>
      have front_no_feed : '\n' ∉ front := fun mem => no_feed (List.mem_append_left _ mem)
      have last_no_feed : last ≠ '\n' := by
        rintro rfl
        exact no_feed (List.mem_append_right _ List.mem_cons_self)
      by_cases returned : last = '\r'
      · subst returned
        rw [Segmentation.CutsLines.cut_return] at sound ⊢
        rcases isSound_of_return sound with ⟨front_sound, tokens_eq⟩
        rw [List.rdropWhile_concat_pos _ _ _ (by decide), tokens_eq]
        exact ih front_no_feed front_sound
      · rw [List.rdropWhile_concat_neg _ _ _ (by simp [returned, last_no_feed])]
        exact ⟨sound, rfl⟩

end Segment

end Scriptlet
