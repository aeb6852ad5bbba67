import Scriptlet.Proofs.Text.Boundary
import Scriptlet.Text.Grapheme

/-!
# Cuts of a text into extended grapheme clusters

Clusters are the cut of their own text when a boundary lies before each of them and none inside.
This is a condition on what is left in the context of the text before a cluster. An ASCII character
leaves nothing of the text before it, so the segmentation is local.
-/

namespace Scriptlet.Text

namespace BreakContext

/-- The context before the first character of a text: a boundary lies there. -/
def initial : BreakContext :=
  ⟨.control, .absent, .absent, false⟩

/-- The context after some more characters. -/
def past (context : BreakContext) : List Char → BreakContext
  | [] => context
  | char :: following => past (context.advance (.of char)) following

/-- Whether no boundary lies before any of some characters. -/
def Holds (context : BreakContext) : List Char → Prop
  | [] => True
  | char :: following =>
      context.joins (.of char) = true ∧ Holds (context.advance (.of char)) following

theorem joins_of_standsAlone {context : BreakContext} (alone : standsAlone context.last)
    (not_return : context.last ≠ .carriageReturn) (next : BreakClass) :
    context.joins next = false := by
  simp [joins, alone, not_return]

theorem joins_initial (next : BreakClass) : initial.joins next = false :=
  joins_of_standsAlone rfl (by decide) next

theorem past_append (context : BreakContext) (left right : List Char) :
    context.past (left ++ right) = (context.past left).past right := by
  induction left generalizing context with
  | nil => rfl
  | cons char left ih => exact ih (context.advance (.of char))

end BreakContext

namespace Cluster

open BreakContext (initial)

/-- Whether clusters are cut at all boundaries of their text, and nowhere else, when the context is
what stands before them. -/
def IsCut (context : BreakContext) : List Cluster → Prop
  | [] => True
  | cluster :: following =>
      context.joins (.of cluster.first) = false
        ∧ (context.advance (.of cluster.first)).Holds cluster.rest
        ∧ IsCut (context.past cluster.chars) following

theorem isCut_append {context : BreakContext} {left right : List Cluster} :
    IsCut context (left ++ right)
      ↔ IsCut context left ∧ IsCut (context.past (charsOf left)) right := by
  induction left generalizing context with
  | nil => simp [IsCut, charsOf, BreakContext.past]
  | cons cluster left ih =>
      have past_eq : context.past (charsOf (cluster :: left))
          = (context.past cluster.chars).past (charsOf left) :=
        BreakContext.past_append context cluster.chars (charsOf left)
      simp only [List.cons_append, IsCut, ih, past_eq, and_assoc]

theorem split_of_joins {context : BreakContext} {char : Char}
    (joins : context.joins (.of char) = true) (text : List Char) :
    split context (char :: text) = (char :: (split (context.advance (.of char)) text).1,
      (split (context.advance (.of char)) text).2) := by
  simp only [split, joins, if_true]

theorem split_of_boundary {context : BreakContext} {char : Char}
    (boundary : context.joins (.of char) = false) (text : List Char) :
    split context (char :: text) = ([], ⟨char, (split (context.advance (.of char)) text).1⟩
      :: (split (context.advance (.of char)) text).2) := by
  simp only [split, boundary, Bool.false_eq_true, if_false]

/-- What follows a context is cut at all its boundaries. -/
theorem isCut_split (context : BreakContext) (text : List Char) :
    context.Holds (split context text).1
      ∧ IsCut (context.past (split context text).1) (split context text).2 := by
  induction text generalizing context with
  | nil => exact ⟨trivial, trivial⟩
  | cons char text ih =>
      have ⟨tail_holds, clusters_cut⟩ := ih (context.advance (.of char))
      cases joins : context.joins (.of char) with
      | true =>
          rw [split_of_joins joins]
          exact ⟨⟨joins, tail_holds⟩, clusters_cut⟩
      | false =>
          rw [split_of_boundary joins]
          exact ⟨trivial, joins, tail_holds, clusters_cut⟩

/-- No other cut of the same text is at all its boundaries. -/
theorem split_eq_of_isCut {context : BreakContext} {text tail : List Char}
    {clusters : List Cluster} (whole : tail ++ charsOf clusters = text)
    (tail_holds : context.Holds tail) (clusters_cut : IsCut (context.past tail) clusters) :
    split context text = (tail, clusters) := by
  induction text generalizing context tail clusters with
  | nil =>
      have ⟨tail_nil, chars_nil⟩ := List.append_eq_nil_iff.mp whole
      cases clusters with
      | nil => rw [tail_nil]; rfl
      | cons cluster following => cases chars_nil
  | cons char text ih =>
      cases tail with
      | cons first tail =>
          rcases List.cons.inj whole with ⟨rfl, following_eq⟩
          rcases tail_holds with ⟨joins, tail_holds⟩
          rw [split_of_joins joins, ih following_eq tail_holds clusters_cut]
      | nil =>
          cases clusters with
          | nil => cases whole
          | cons cluster following =>
              rcases List.cons.inj whole with ⟨rfl, following_eq⟩
              change IsCut context (cluster :: following) at clusters_cut
              rcases clusters_cut with ⟨boundary, rest_holds, following_cut⟩
              rw [split_of_boundary boundary, ih following_eq rest_holds following_cut]

theorem ofChars_eq_split (text : List Char) : ofChars text = (split initial text).2 := by
  cases text with
  | nil => rfl
  | cons char text => rw [split_of_boundary (BreakContext.joins_initial _)]; rfl

/-- The cut of a text is at all its boundaries. -/
theorem isCut_ofChars (text : List Char) : IsCut initial (ofChars text) := by
  have nothing_before : (split initial text).1 = [] := by
    cases text with
    | nil => rfl
    | cons char text => rw [split_of_boundary (BreakContext.joins_initial _)]
  have ⟨_, clusters_cut⟩ := isCut_split initial text
  rw [nothing_before] at clusters_cut
  rw [ofChars_eq_split]
  exact clusters_cut

/-- Clusters that are cut at all boundaries are the cut of their text. -/
theorem ofChars_charsOf {clusters : List Cluster} (cut : IsCut initial clusters) :
    ofChars (charsOf clusters) = clusters := by
  have split_eq : split initial (charsOf clusters) = ([], clusters) :=
    split_eq_of_isCut (List.nil_append _) trivial cut
  rw [ofChars_eq_split, split_eq]

/-- A text that is continued by clusters which are cut at all boundaries after it. -/
theorem ofChars_append {left : List Char} {after : List Cluster}
    (after_cut : IsCut (initial.past left) after) :
    ofChars (left ++ charsOf after) = ofChars left ++ after := by
  have whole : charsOf (ofChars left ++ after) = left ++ charsOf after := by
    rw [charsOf_append, chars_ofChars]
  rw [← whole]
  apply ofChars_charsOf
  rw [isCut_append, chars_ofChars]
  exact ⟨isCut_ofChars left, after_cut⟩

end Cluster

namespace BreakClass

/-- The classes of ASCII characters. -/
theorem of_ascii {char : Char} (ascii : IsAscii char) :
    of char = .carriageReturn ∧ char = '\r' ∨ of char = .lineFeed ∧ char = '\n' ∨
      of char = .control ∨ of char = .plain := by
  have small : char.toNat < 0x80 := ascii
  rw [of, if_pos small, ofAscii]
  split
  next point_eq => exact .inl ⟨rfl, Char.toNat_inj.mp point_eq⟩
  next =>
    split
    next point_eq => exact .inr (.inl ⟨rfl, Char.toNat_inj.mp point_eq⟩)
    next =>
      split
      · exact .inr (.inr (.inl rfl))
      · exact .inr (.inr (.inr rfl))

end BreakClass

namespace BreakContext

/-- An ASCII character leaves nothing of the text before it. -/
theorem advance_ascii {char : Char} (ascii : IsAscii char) (context other : BreakContext) :
    context.advance (.of char) = other.advance (.of char) := by
  rcases BreakClass.of_ascii ascii with ⟨class_eq, -⟩ | ⟨class_eq, -⟩ | class_eq | class_eq <;>
    rw [class_eq] <;> rfl

theorem joins_ascii {first second : Char} (first_ascii : IsAscii first)
    (second_ascii : IsAscii second) (no_lineEnd : ¬(first = '\r' ∧ second = '\n'))
    (context : BreakContext) :
    (context.advance (.of first)).joins (.of second) = false := by
  rcases BreakClass.of_ascii first_ascii with
    ⟨first_eq, returned⟩ | ⟨first_eq, -⟩ | first_eq | first_eq <;> rw [first_eq]
  · rcases BreakClass.of_ascii second_ascii with
      ⟨second_eq, -⟩ | ⟨-, fed⟩ | second_eq | second_eq
    · rw [second_eq]; rfl
    · exact absurd ⟨returned, fed⟩ no_lineEnd
    · rw [second_eq]; rfl
    · rw [second_eq]; rfl
  · exact joins_of_standsAlone rfl (fun returned => by cases returned) _
  · exact joins_of_standsAlone rfl (fun returned => by cases returned) _
  · rcases BreakClass.of_ascii second_ascii with
      ⟨second_eq, -⟩ | ⟨second_eq, -⟩ | second_eq | second_eq <;> rw [second_eq] <;> rfl

end BreakContext

namespace Segmentation

open Cluster (IsCut isCut_append isCut_ofChars isCut_split ofChars charsOf)
open BreakContext (initial)

/-- A boundary lies where the next character does not go with the text before it. -/
theorem isBoundary_graphemes_iff {left right : List Char} {next : Char} :
    graphemes.IsBoundary left (next :: right) ↔ (initial.past left).joins (.of next) = false := by
  constructor
  · rintro ⟨before, after, cut_eq, rfl, after_eq⟩
    have cut := isCut_ofChars (charsOf before ++ next :: right)
    change ofChars (charsOf before ++ next :: right) = before ++ after at cut_eq
    rw [cut_eq, isCut_append] at cut
    cases after with
    | nil => cases after_eq
    | cons cluster following =>
        rw [← (List.cons.inj after_eq).1]
        exact cut.2.1
  · intro boundary
    obtain ⟨after, after_cut, after_eq⟩ : ∃ after, IsCut (initial.past left) after ∧
        charsOf after = next :: right := by
      have cut := isCut_split (initial.past left) (next :: right)
      have whole := Cluster.chars_split (initial.past left) (next :: right)
      rw [Cluster.split_of_boundary boundary] at cut whole
      exact ⟨_, cut.2, whole⟩
    refine ⟨ofChars left, after, ?_, Cluster.chars_ofChars left, after_eq⟩
    rw [← after_eq]
    exact Cluster.ofChars_append after_cut

instance : graphemes.IsLocal where
  ascii_apart left right first_ascii second_ascii no_lineEnd := by
    rw [isBoundary_graphemes_iff, BreakContext.past_append]
    exact BreakContext.joins_ascii first_ascii second_ascii no_lineEnd _
  decided ascii _ left right otherLeft otherRight := by
    rw [isBoundary_graphemes_iff, isBoundary_graphemes_iff, BreakContext.past_append,
      BreakContext.past_append, BreakContext.past, BreakContext.past,
      BreakContext.advance_ascii ascii]

end Segmentation

end Scriptlet.Text
