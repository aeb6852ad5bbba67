import Scriptlet.Proofs.Text.Cut

/-!
# The end of a line between clusters

In the cut into extended grapheme clusters a line feed is cut off on both sides, except that it goes
with a carriage return in front of it. Nothing of the line before it is left in the context, so the
next line is cut as on its own. A carriage return is always cut off from what stands before it.
-/

namespace Scriptlet.Text

namespace BreakContext

/-- The context after a line feed. -/
def afterFeed : BreakContext :=
  ⟨.lineFeed, .absent, .absent, false⟩

theorem joins_carriageReturn (context : BreakContext) : context.joins .carriageReturn = false := by
  simp [joins, standsAlone]

theorem joins_lineFeed {context : BreakContext} (not_return : context.last ≠ .carriageReturn) :
    context.joins .lineFeed = false := by
  simp [joins, standsAlone, not_return]

theorem last_past (context : BreakContext) (text : List Char) (char : Char) :
    (context.past (text ++ [char])).last = .of char := by
  rw [past_append]
  rfl

end BreakContext

/-- No other character is of the class of the carriage return. -/
theorem eq_return_of_class {char : Char} (same : BreakClass.of char = .carriageReturn) :
    char = '\r' := by
  by_cases ascii : IsAscii char
  · rcases BreakClass.of_ascii ascii with ⟨-, char_eq⟩ | ⟨other, -⟩ | other | other
    · exact char_eq
    all_goals
      rw [other] at same
      cases same
  · have large : ¬char.toNat < 0x80 := ascii
    rw [BreakClass.of, if_neg large, BreakClass.ofWide] at same
    split at same
    · cases same
    split at same
    · cases same
    split at same
    · cases same
    split at same
    · rw [BreakClass.ofSyllable] at same
      split at same <;> cases same
    split at same
    next table found =>
      have table_mem := List.mem_of_find?_eq_some found
      simp only [BreakClass.tables, List.mem_cons, List.not_mem_nil, or_false] at table_mem
      rcases table_mem with rfl | rfl | rfl | rfl | rfl | rfl | rfl | rfl | rfl | rfl <;> cases same
    next => cases same

namespace Cluster

open BreakContext (initial afterFeed)

theorem isCut_afterFeed_iff {clusters : List Cluster} :
    IsCut afterFeed clusters ↔ IsCut initial clusters := by
  cases clusters with
  | nil => exact Iff.rfl
  | cons cluster following =>
      have after_boundary : afterFeed.joins (.of cluster.first) = false :=
        BreakContext.joins_of_standsAlone rfl (by decide) _
      simp only [IsCut, after_boundary, BreakContext.joins_initial]
      rfl

theorem isCut_initial_feed (text : List Char) : IsCut afterFeed (ofChars text) :=
  isCut_afterFeed_iff.mpr (isCut_ofChars text)

/-- A line feed that does not go with a carriage return is a cluster. -/
theorem ofChars_feed {line : List Char} (no_return : line.getLast? ≠ some '\r')
    (later : List Char) :
    ofChars (line ++ '\n' :: later) = ofChars line ++ single '\n' :: ofChars later := by
  have chars_eq : charsOf (single '\n' :: ofChars later) = '\n' :: later :=
    congrArg ('\n' :: ·) (chars_ofChars later)
  rw [← chars_eq]
  refine ofChars_append ⟨?_, trivial, isCut_initial_feed later⟩
  apply BreakContext.joins_lineFeed
  rcases List.eq_nil_or_concat line with rfl | ⟨front, last, rfl⟩
  · decide
  · intro returned
    rw [List.concat_eq_append, BreakContext.last_past] at returned
    apply no_return
    rw [List.concat_eq_append, List.getLast?_concat, eq_return_of_class returned]

/-- A line feed after a carriage return makes one cluster with it. -/
theorem ofChars_return_feed (line later : List Char) :
    ofChars (line ++ '\r' :: '\n' :: later) = ofChars line ++ ⟨'\r', ['\n']⟩ :: ofChars later := by
  have chars_eq : charsOf (⟨'\r', ['\n']⟩ :: ofChars later) = '\r' :: '\n' :: later :=
    congrArg ('\r' :: '\n' :: ·) (chars_ofChars later)
  rw [← chars_eq]
  refine ofChars_append ⟨?_, ⟨?_, trivial⟩, isCut_initial_feed later⟩
  · exact BreakContext.joins_carriageReturn _
  · rfl

/-- A carriage return at the end of a text is a cluster. -/
theorem ofChars_return (line : List Char) :
    ofChars (line ++ ['\r']) = ofChars line ++ [single '\r'] := by
  have after_cut : IsCut (initial.past line) [single '\r'] :=
    ⟨BreakContext.joins_carriageReturn _, trivial, trivial⟩
  exact ofChars_append after_cut

end Cluster

instance : Segmentation.graphemes.CutsLines where
  cut_feed := Cluster.ofChars_feed
  cut_return_feed := Cluster.ofChars_return_feed
  cut_return := Cluster.ofChars_return

end Scriptlet.Text
