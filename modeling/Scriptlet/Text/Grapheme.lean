import Scriptlet.Text.BreakClass
import Scriptlet.Text.Cluster

/-!
# Extended grapheme clusters

One segmentation is that into the extended grapheme clusters of Unicode. Whether a boundary lies
before a character is decided from the character's class and a small summary of the text before it,
so one pass from left to right cuts the whole text.

* `Cluster.ofChars` cuts a text;
* `Segmentation.graphemes` is this cut as a segmentation, which the program runs with.
-/

namespace Scriptlet.Text

/-- How far a conjunct of consonants has been read. -/
inductive Conjunct where
  | absent
  | consonant
  | linked
  deriving DecidableEq, Repr

/-- How far a sequence of pictographs held by joiners has been read. -/
inductive EmojiSequence where
  | absent
  | pictograph
  | joined
  deriving DecidableEq, Repr

/-- What has to be known about the text before a character to place a boundary there. -/
structure BreakContext where
  last : BreakClass
  conjunct : Conjunct
  emoji : EmojiSequence
  /-- An odd number of regional indicators stands directly before. -/
  openFlag : Bool
  deriving DecidableEq, Repr

namespace BreakContext

/-- The conjunct state after one more character. Extending marks and joiners leave a conjunct open;
anything else ends it, the non-joiner too. -/
def nextConjunct (state : Conjunct) : BreakClass → Conjunct
  | .consonant => .consonant
  | .linking => if state = .absent then .absent else .linked
  | .extending | .joiner => state
  | _ => .absent

/-- The emoji state after one more character. Every attached mark may stand between a pictograph
and its joiner. -/
def nextEmoji (state : EmojiSequence) : BreakClass → EmojiSequence
  | .pictograph => .pictograph
  | .extending | .linking | .nonJoiner => if state = .pictograph then .pictograph else .absent
  | .joiner => if state = .pictograph then .joined else .absent
  | _ => .absent

/-- The context after one more character. -/
def advance (context : BreakContext) (next : BreakClass) : BreakContext where
  last := next
  conjunct := nextConjunct context.conjunct next
  emoji := nextEmoji context.emoji next
  openFlag := next = .regionalIndicator && !context.openFlag

/-- The context after the first character of a text. -/
def start (first : BreakClass) : BreakContext :=
  advance ⟨.control, .absent, .absent, false⟩ first

/-- Classes that never share a cluster with a neighbour, apart from a line feed after a carriage
return. -/
def standsAlone : BreakClass → Bool
  | .carriageReturn | .lineFeed | .control => true
  | _ => false

/-- Letters and syllables of Hangul that continue a syllable. -/
def continuesSyllable : BreakClass → BreakClass → Bool
  | .leadingJamo, .leadingJamo | .leadingJamo, .vowelJamo => true
  | .leadingJamo, .openSyllable | .leadingJamo, .closedSyllable => true
  | .openSyllable, .vowelJamo | .openSyllable, .trailingJamo => true
  | .vowelJamo, .vowelJamo | .vowelJamo, .trailingJamo => true
  | .closedSyllable, .trailingJamo | .trailingJamo, .trailingJamo => true
  | _, _ => false

/-- Whether a character of class `next` belongs to the cluster of the text before it. -/
def joins (context : BreakContext) (next : BreakClass) : Bool :=
  if context.last = .carriageReturn ∧ next = .lineFeed then true
  else if standsAlone context.last || standsAlone next then false
  else
    match next with
    | .extending | .linking | .joiner | .nonJoiner | .spacing => true
    | _ =>
      context.last = .prepending
        || continuesSyllable context.last next
        || (next = .consonant && context.conjunct = .linked)
        || (next = .pictograph && context.emoji = .joined)
        || (next = .regionalIndicator && context.openFlag)

end BreakContext

namespace Cluster

/-- Cuts what follows a text with the given context into the code points that still belong to the
last cluster of that text, and the clusters after it. -/
def split (context : BreakContext) : List Char → List Char × List Cluster
  | [] => ([], [])
  | char :: following =>
      let next := BreakClass.of char
      let (tail, clusters) := split (context.advance next) following
      if context.joins next then (char :: tail, clusters) else ([], ⟨char, tail⟩ :: clusters)

/-- Cuts a text. -/
def ofChars : List Char → List Cluster
  | [] => []
  | char :: following =>
      let (tail, clusters) := split (.start (.of char)) following
      ⟨char, tail⟩ :: clusters

theorem chars_split (context : BreakContext) (following : List Char) :
    (split context following).1 ++ charsOf (split context following).2 = following := by
  induction following generalizing context with
  | nil => rfl
  | cons char following ih =>
      have tail := ih (context.advance (BreakClass.of char))
      simp only [split]
      split <;> simp_all [charsOf, chars]

/-- The clusters of a text, put together, are that text. -/
theorem chars_ofChars (source : List Char) : charsOf (ofChars source) = source := by
  cases source with
  | nil => rfl
  | cons char following =>
      simpa [ofChars, charsOf, chars] using chars_split (.start (.of char)) following

end Cluster

/-- The segmentation into extended grapheme clusters. -/
def Segmentation.graphemes : Segmentation :=
  ⟨Cluster.ofChars, Cluster.chars_ofChars⟩

end Scriptlet.Text
