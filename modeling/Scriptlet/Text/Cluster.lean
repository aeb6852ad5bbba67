/-!
# Grapheme clusters

A source text is read as user-perceived characters: grapheme clusters of one code point or several.
Where one ends and the next starts is decided outside of this development, by a segmentation that
everything that reads sources is given. Of a segmentation nothing is required but that the clusters
of a text, put together, are this text again.
-/

namespace Scriptlet.Text

/-- A user-perceived character: a first code point and those that belong to it. -/
structure Cluster where
  first : Char
  rest : List Char
  deriving DecidableEq, Repr

namespace Cluster

/-- The code points of a cluster. -/
def chars (cluster : Cluster) : List Char :=
  cluster.first :: cluster.rest

/-- The cluster of one code point. -/
def single (char : Char) : Cluster :=
  ⟨char, []⟩

/-- The code points of consecutive clusters. -/
def charsOf (clusters : List Cluster) : List Char :=
  clusters.flatMap chars

/-- The text of consecutive clusters. -/
def text (clusters : List Cluster) : String :=
  String.ofList (charsOf clusters)

end Cluster

/-- A way to cut texts into clusters without losing or adding anything. -/
structure Segmentation where
  /-- The clusters of a text. -/
  cut : List Char → List Cluster
  /-- The clusters of a text, put together, are the text. -/
  charsOf_cut : ∀ text, Cluster.charsOf (cut text) = text

end Scriptlet.Text
