/-!
# Outlines

An outline shows how a program was understood: every construct is a list in parentheses that
starts with a word for the construct.
-/

namespace Scriptlet

/-- A word, or a list of outlines. -/
inductive Outline where
  | atom (text : String)
  | list (items : List Outline)

namespace Outline

/-- A construct: its word and its parts. -/
def construct (word : String) (parts : List Outline) : Outline :=
  .list (.atom word :: parts)

mutual

/-- The text of an outline: a list stands between parentheses, its items apart by spaces. -/
def text : Outline → String
  | .atom text => text
  | .list items => "(" ++ " ".intercalate (texts items) ++ ")"

/-- The texts of outlines. -/
def texts : List Outline → List String
  | [] => []
  | item :: others => item.text :: texts others

end

end Outline

end Scriptlet
