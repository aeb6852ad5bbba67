import Mathlib.Data.List.Induction
import Scriptlet.Text.Cluster

/-!
# Boundaries between clusters

Clusters are known by their characters and by the places in between where a boundary lies. Of a
segmentation two things are assumed, each where it is needed. One is that it is *local*: ASCII
characters next to each other are kept apart, but for a line feed after a carriage return, and any
other boundary is decided by the text since the last ASCII character before it. Texts that start and
end with ASCII characters can then be put together, and each of them is cut as on its own. The other
one is that it *cuts lines* apart: line ends are clusters, and lines are cut as on their own.
-/

namespace Scriptlet.Text

namespace Cluster

theorem charsOf_cons (cluster : Cluster) (clusters : List Cluster) :
    charsOf (cluster :: clusters) = cluster.chars ++ charsOf clusters :=
  List.flatMap_cons

theorem charsOf_append (left right : List Cluster) :
    charsOf (left ++ right) = charsOf left ++ charsOf right :=
  List.flatMap_append

theorem charsOf_map_single (chars : List Char) : charsOf (chars.map single) = chars := by
  induction chars with
  | nil => rfl
  | cons char chars ih => exact congrArg (char :: ·) ih

theorem chars_ne_nil (cluster : Cluster) : cluster.chars ≠ [] :=
  List.cons_ne_nil _ _

theorem chars_injective {cluster other : Cluster} (same : cluster.chars = other.chars) :
    cluster = other := by
  rcases cluster with ⟨first, rest⟩
  rcases other with ⟨otherFirst, otherRest⟩
  rcases List.cons.inj same with ⟨rfl, rfl⟩
  rfl

theorem eq_nil_of_charsOf {clusters : List Cluster} (nothing : charsOf clusters = []) :
    clusters = [] := by
  cases clusters with
  | nil => rfl
  | cons cluster clusters =>
      rw [charsOf_cons, List.append_eq_nil_iff] at nothing
      exact absurd nothing.1 cluster.chars_ne_nil

/-- Whether clusters have a boundary where their text is divided in two. -/
def HasBoundary (clusters : List Cluster) (left right : List Char) : Prop :=
  ∃ before after, clusters = before ++ after ∧ charsOf before = left ∧ charsOf after = right

variable {clusters others : List Cluster} {left right : List Char}

theorem HasBoundary.charsOf_eq (boundary : HasBoundary clusters left right) :
    charsOf clusters = left ++ right := by
  rcases boundary with ⟨before, after, rfl, rfl, rfl⟩
  exact charsOf_append before after

theorem hasBoundary_start (whole : charsOf clusters = right) : HasBoundary clusters [] right :=
  ⟨[], clusters, rfl, rfl, whole⟩

theorem hasBoundary_end (whole : charsOf clusters = left) : HasBoundary clusters left [] :=
  ⟨clusters, [], (List.append_nil clusters).symm, whole, rfl⟩

theorem hasBoundary_cons_iff {cluster : Cluster} :
    HasBoundary (cluster :: clusters) (cluster.chars ++ left) right
      ↔ HasBoundary clusters left right := by
  constructor
  · rintro ⟨before, after, whole, left_eq, right_eq⟩
    cases before with
    | nil => exact absurd (List.append_eq_nil_iff.mp left_eq.symm).1 cluster.chars_ne_nil
    | cons head before =>
        rcases List.cons.inj whole with ⟨rfl, rfl⟩
        rw [charsOf_cons] at left_eq
        exact ⟨before, after, rfl, List.append_cancel_left left_eq, right_eq⟩
  · rintro ⟨before, after, rfl, rfl, right_eq⟩
    exact ⟨cluster :: before, after, rfl, charsOf_cons cluster before, right_eq⟩

/-- The clusters after some others have their boundaries among them. -/
theorem hasBoundary_append_left (before : List Cluster) :
    HasBoundary (before ++ clusters) (charsOf before ++ left) right
      ↔ HasBoundary clusters left right := by
  induction before with
  | nil => exact Iff.rfl
  | cons cluster before ih =>
      rw [List.cons_append, charsOf_cons, List.append_assoc, hasBoundary_cons_iff, ih]

/-- The clusters in front of some others have their boundaries among them. -/
theorem hasBoundary_append_right (whole : charsOf clusters = left ++ right)
    (after : List Cluster) :
    HasBoundary (clusters ++ after) left (right ++ charsOf after)
      ↔ HasBoundary clusters left right := by
  constructor
  · rintro ⟨front, back, clusters_eq, front_eq, back_eq⟩
    rcases List.append_eq_append_iff.mp clusters_eq with
      ⟨middle, rfl, rfl⟩ | ⟨middle, rfl, rfl⟩
    -- The boundary lies behind the clusters only if it is at their end.
    · rw [charsOf_append, whole, List.append_assoc, List.append_right_eq_self,
        List.append_eq_nil_iff] at front_eq
      rw [front_eq.1] at whole ⊢
      exact hasBoundary_end (whole.trans (List.append_nil left))
    · rw [charsOf_append] at back_eq
      exact ⟨front, middle, rfl, front_eq, List.append_cancel_right back_eq⟩
  · rintro ⟨front, back, rfl, front_eq, rfl⟩
    exact ⟨front, back ++ after, List.append_assoc .., front_eq, charsOf_append back after⟩

theorem HasBoundary.first_begins {cluster : Cluster}
    (boundary : HasBoundary (cluster :: clusters) left right) (some_char : left ≠ []) :
    cluster.chars <+: left := by
  rcases boundary with ⟨before, after, whole, rfl, -⟩
  cases before with
  | nil => exact absurd rfl some_char
  | cons head before =>
      rcases List.cons.inj whole with ⟨rfl, -⟩
      exact ⟨charsOf before, (charsOf_cons cluster before).symm⟩

/-- Clusters are known by their text and their boundaries. -/
theorem eq_of_boundaries (whole : charsOf clusters = charsOf others)
    (boundaries : ∀ left right, HasBoundary clusters left right ↔ HasBoundary others left right) :
    clusters = others := by
  induction clusters generalizing others with
  | nil => exact (eq_nil_of_charsOf whole.symm).symm
  | cons cluster clusters ih =>
      cases others with
      | nil => exact eq_nil_of_charsOf whole
      | cons other others =>
          have after_first (first : Cluster) (following : List Cluster) :
              HasBoundary (first :: following) first.chars (charsOf following) :=
            ⟨[first], following, rfl, List.flatMap_singleton .., rfl⟩
          have other_begins : other.chars <+: cluster.chars :=
            ((boundaries _ _).mp (after_first cluster clusters)).first_begins cluster.chars_ne_nil
          have cluster_begins : cluster.chars <+: other.chars :=
            ((boundaries _ _).mpr (after_first other others)).first_begins other.chars_ne_nil
          have first_eq : cluster = other :=
            chars_injective (cluster_begins.eq_of_length_le other_begins.length_le)
          subst first_eq
          rw [charsOf_cons, charsOf_cons] at whole
          rw [ih (List.append_cancel_left whole)]
          intro left right
          rw [← hasBoundary_cons_iff, boundaries, hasBoundary_cons_iff]

end Cluster

/-- Whether a character is an ASCII character. -/
def IsAscii (char : Char) : Prop :=
  char.toNat < 0x80

/-- Whether a character is an ASCII character that goes with no other one after it. -/
def IsPlain (char : Char) : Prop :=
  IsAscii char ∧ char ≠ '\r'

instance : DecidablePred IsAscii := fun char =>
  inferInstanceAs (Decidable (char.toNat < 0x80))

instance : DecidablePred IsPlain := fun char =>
  inferInstanceAs (Decidable (IsAscii char ∧ char ≠ '\r'))

theorem isPlain_of_all {text : List Char}
    (all : text.all (fun char => decide (IsPlain char)) = true) : ∀ char ∈ text, IsPlain char :=
  fun char char_mem => of_decide_eq_true (List.all_eq_true.mp all char char_mem)

/-- The last ASCII character of a text. -/
theorem exists_last_ascii {text : List Char} (some_ascii : ∃ char ∈ text, IsAscii char) :
    ∃ before last between, text = before ++ last :: between ∧ IsAscii last ∧
      ∀ char ∈ between, ¬IsAscii char := by
  induction text using List.reverseRecOn with
  | nil => simp at some_ascii
  | append_singleton front final ih =>
      by_cases final_ascii : IsAscii final
      · exact ⟨front, final, [], rfl, final_ascii, by simp⟩
      · have front_ascii : ∃ char ∈ front, IsAscii char := by
          rcases some_ascii with ⟨char, char_mem, ascii⟩
          rcases List.mem_append.mp char_mem with front_mem | final_mem
          · exact ⟨char, front_mem, ascii⟩
          · rw [List.mem_singleton.mp final_mem] at ascii
            exact absurd ascii final_ascii
        rcases ih front_ascii with ⟨before, last, between, rfl, ascii, no_ascii⟩
        refine ⟨before, last, between ++ [final], by simp, ascii, ?_⟩
        exact List.forall_mem_append.mpr ⟨no_ascii, List.forall_mem_singleton.mpr final_ascii⟩

/-- What a text with a plain character at its start starts with holds an ASCII character. -/
theorem exists_ascii_of_starts {text left right : List Char}
    (starts : ∃ first following, text = first :: following ∧ IsPlain first)
    (divided : text = left ++ right) (some_char : left ≠ []) : ∃ char ∈ left, IsAscii char := by
  rcases starts with ⟨first, following, rfl, plain⟩
  cases left with
  | nil => exact absurd rfl some_char
  | cons head left => exact ⟨head, List.mem_cons_self, (List.cons.inj divided).1 ▸ plain.1⟩

namespace Segmentation

open Cluster (charsOf single HasBoundary)

/-- Whether a segmentation has a boundary where a text is divided in two. -/
def IsBoundary (segmentation : Segmentation) (left right : List Char) : Prop :=
  HasBoundary (segmentation.cut (left ++ right)) left right

/-- ASCII characters are kept apart, but for a line feed after a carriage return, and any other
boundary is decided by the text from the last ASCII character before it up to the character after
it. -/
class IsLocal (segmentation : Segmentation) : Prop where
  /-- A boundary lies between two ASCII characters that are no line end together. -/
  ascii_apart : ∀ {first second : Char} (left right : List Char), IsAscii first → IsAscii second →
    ¬(first = '\r' ∧ second = '\n') → segmentation.IsBoundary (left ++ [first]) (second :: right)
  /-- Neither what comes before the last ASCII character nor what comes after the next character
  makes a difference. -/
  decided : ∀ {last next : Char} {between : List Char},
    IsAscii last → (∀ char ∈ between, ¬IsAscii char) →
    ∀ left right otherLeft otherRight : List Char,
    (segmentation.IsBoundary (left ++ last :: between) (next :: right)
      ↔ segmentation.IsBoundary (otherLeft ++ last :: between) (next :: otherRight))

/-- Line feeds, carriage returns with line feeds, and carriage returns at the end of a text are
clusters, and the lines around a line feed are cut as on their own. -/
class CutsLines (segmentation : Segmentation) : Prop where
  /-- A line feed that follows no carriage return is a cluster. -/
  cut_feed : ∀ {line : List Char}, line.getLast? ≠ some '\r' → ∀ later : List Char,
    segmentation.cut (line ++ '\n' :: later)
      = segmentation.cut line ++ single '\n' :: segmentation.cut later
  /-- A carriage return and a line feed are a cluster. -/
  cut_return_feed : ∀ line later : List Char,
    segmentation.cut (line ++ '\r' :: '\n' :: later)
      = segmentation.cut line ++ ⟨'\r', ['\n']⟩ :: segmentation.cut later
  /-- A carriage return at the end is a cluster. -/
  cut_return : ∀ line : List Char,
    segmentation.cut (line ++ ['\r']) = segmentation.cut line ++ [single '\r']

variable {segmentation : Segmentation}

theorem cut_nil (segmentation : Segmentation) : segmentation.cut [] = [] :=
  Cluster.eq_nil_of_charsOf (segmentation.charsOf_cut [])

theorem cut_singleton (segmentation : Segmentation) (char : Char) :
    segmentation.cut [char] = [single char] := by
  have whole := segmentation.charsOf_cut [char]
  rcases clusters_eq : segmentation.cut [char] with - | ⟨⟨first, rest⟩, following⟩
  · rw [clusters_eq] at whole
    cases whole
  · rw [clusters_eq, Cluster.charsOf_cons] at whole
    rcases List.cons.inj whole with ⟨rfl, nothing⟩
    rcases List.append_eq_nil_iff.mp nothing with ⟨rfl, nothing⟩
    rw [Cluster.eq_nil_of_charsOf nothing]
    rfl

/-- A text is cut into clusters that have the boundaries of the segmentation. There is always one at
either end. -/
theorem cut_charsOf {clusters : List Cluster}
    (boundaries : ∀ left right, charsOf clusters = left ++ right → left ≠ [] → right ≠ [] →
      (segmentation.IsBoundary left right ↔ HasBoundary clusters left right)) :
    segmentation.cut (charsOf clusters) = clusters := by
  have whole := segmentation.charsOf_cut (charsOf clusters)
  apply Cluster.eq_of_boundaries whole
  intro left right
  by_cases divided : charsOf clusters = left ++ right
  · by_cases left_nil : left = []
    · subst left_nil
      exact iff_of_true (Cluster.hasBoundary_start (whole.trans divided))
        (Cluster.hasBoundary_start divided)
    by_cases right_nil : right = []
    · subst right_nil
      rw [List.append_nil] at divided
      exact iff_of_true (Cluster.hasBoundary_end (whole.trans divided))
        (Cluster.hasBoundary_end divided)
    rw [← boundaries left right divided left_nil right_nil, IsBoundary, ← divided]
  · exact iff_of_false (fun boundary => divided (whole.symm.trans boundary.charsOf_eq))
      (fun boundary => divided boundary.charsOf_eq)

/-- Clusters that can stand next to others: they are the cut of their text, which starts and ends
with a plain character. -/
structure Bounded (segmentation : Segmentation) (clusters : List Cluster) : Prop where
  cut_eq : segmentation.cut (charsOf clusters) = clusters
  starts : ∃ first following, charsOf clusters = first :: following ∧ IsPlain first
  ends : ∃ front last, charsOf clusters = front ++ [last] ∧ IsPlain last

theorem Bounded.ne_nil {clusters : List Cluster} (bounded : segmentation.Bounded clusters) :
    clusters ≠ [] := by
  rintro rfl
  rcases bounded.starts with ⟨_, _, whole, -⟩
  cases whole

theorem bounded_single {char : Char} (plain : IsPlain char) :
    segmentation.Bounded [single char] where
  cut_eq := segmentation.cut_singleton char
  starts := ⟨char, [], rfl, plain⟩
  ends := ⟨[], char, rfl, plain⟩

section

variable [segmentation.IsLocal]

/-- Behind a text with an ASCII character, boundaries do not depend on what comes before it, nor on
more than the next character. -/
theorem isBoundary_congr {text : List Char} (some_ascii : ∃ char ∈ text, IsAscii char)
    (next : Char) (left right otherLeft otherRight : List Char) :
    segmentation.IsBoundary (left ++ text) (next :: right)
      ↔ segmentation.IsBoundary (otherLeft ++ text) (next :: otherRight) := by
  rcases exists_last_ascii some_ascii with ⟨before, last, between, rfl, ascii, no_ascii⟩
  rw [← List.append_assoc, ← List.append_assoc]
  exact IsLocal.decided ascii no_ascii ..

/-- Bounded texts can be put together. -/
theorem Bounded.append {left right : List Cluster} (left_bounded : segmentation.Bounded left)
    (right_bounded : segmentation.Bounded right) : segmentation.Bounded (left ++ right) where
  cut_eq := by
    have between : segmentation.IsBoundary (charsOf left) (charsOf right) := by
      rcases left_bounded.ends with ⟨front, last, left_eq, last_plain⟩
      rcases right_bounded.starts with ⟨first, following, right_eq, first_plain⟩
      rw [left_eq, right_eq]
      exact IsLocal.ascii_apart _ _ last_plain.1 first_plain.1 fun lineEnd => last_plain.2 lineEnd.1
    have divides : HasBoundary (left ++ right) (charsOf left) (charsOf right) :=
      ⟨left, right, rfl, rfl, rfl⟩
    apply cut_charsOf
    intro before after divided before_ne after_ne
    rw [Cluster.charsOf_append] at divided
    rcases List.append_eq_append_iff.mp divided with
      ⟨middle, rfl, right_eq⟩ | ⟨middle, left_eq, rfl⟩
    · cases after with
      | nil => exact absurd rfl after_ne
      | cons next after =>
          cases middle with
          | nil =>
              rw [List.append_nil]
              rw [List.nil_append] at right_eq
              exact right_eq ▸ iff_of_true between divides
          | cons head middle =>
              have some_ascii :=
                exists_ascii_of_starts right_bounded.starts right_eq (List.cons_ne_nil _ _)
              calc segmentation.IsBoundary (charsOf left ++ head :: middle) (next :: after)
                _ ↔ segmentation.IsBoundary ([] ++ head :: middle) (next :: after) :=
                    isBoundary_congr some_ascii ..
                _ ↔ HasBoundary right (head :: middle) (next :: after) := by
                    rw [List.nil_append, IsBoundary, ← right_eq, right_bounded.cut_eq]
                _ ↔ HasBoundary (left ++ right) (charsOf left ++ head :: middle) (next :: after) :=
                    (Cluster.hasBoundary_append_left left).symm
    · cases middle with
      | nil =>
          rw [List.append_nil] at left_eq
          rw [List.nil_append]
          exact left_eq ▸ iff_of_true between divides
      | cons next middle =>
          have some_ascii := exists_ascii_of_starts left_bounded.starts left_eq before_ne
          calc segmentation.IsBoundary before (next :: (middle ++ charsOf right))
            _ ↔ segmentation.IsBoundary before (next :: middle) :=
                isBoundary_congr some_ascii next [] (middle ++ charsOf right) [] middle
            _ ↔ HasBoundary left before (next :: middle) := by
                rw [IsBoundary, ← left_eq, left_bounded.cut_eq]
            _ ↔ HasBoundary (left ++ right) before (next :: middle ++ charsOf right) :=
                (Cluster.hasBoundary_append_right left_eq right).symm
  starts := by
    rcases left_bounded.starts with ⟨first, following, left_eq, plain⟩
    exact ⟨first, following ++ charsOf right, by rw [Cluster.charsOf_append, left_eq]; rfl, plain⟩
  ends := by
    rcases right_bounded.ends with ⟨front, last, right_eq, plain⟩
    refine ⟨charsOf left ++ front, last, ?_, plain⟩
    rw [Cluster.charsOf_append, right_eq, List.append_assoc]

/-- A part of a cut that starts and ends with plain characters is bounded. -/
theorem bounded_of_part {before clusters after : List Cluster} {source : List Char}
    (cut_eq : segmentation.cut source = before ++ clusters ++ after)
    (starts : ∃ first following, charsOf clusters = first :: following ∧ IsPlain first)
    (ends : ∃ front last, charsOf clusters = front ++ [last] ∧ IsPlain last) :
    segmentation.Bounded clusters where
  cut_eq := by
    apply cut_charsOf
    intro left right divided left_ne right_ne
    have some_ascii := exists_ascii_of_starts starts divided left_ne
    have source_eq : source = (charsOf before ++ left) ++ (right ++ charsOf after) := by
      rw [← segmentation.charsOf_cut source, cut_eq, Cluster.charsOf_append,
        Cluster.charsOf_append, divided]
      simp only [List.append_assoc]
    cases right with
    | nil => exact absurd rfl right_ne
    | cons next right =>
        calc segmentation.IsBoundary left (next :: right)
          _ ↔ segmentation.IsBoundary (charsOf before ++ left) (next :: right ++ charsOf after) :=
              isBoundary_congr some_ascii next [] right (charsOf before) (right ++ charsOf after)
          _ ↔ HasBoundary (before ++ (clusters ++ after)) (charsOf before ++ left)
                (next :: right ++ charsOf after) := by
              rw [IsBoundary, ← source_eq, cut_eq, List.append_assoc]
          _ ↔ HasBoundary clusters left (next :: right) := by
              rw [Cluster.hasBoundary_append_left, Cluster.hasBoundary_append_right divided]
  starts := starts
  ends := ends

end

end Segmentation

end Scriptlet.Text
