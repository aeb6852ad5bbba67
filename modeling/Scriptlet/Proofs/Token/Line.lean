import Scriptlet.Token.OfKind

/-!
# Tokens apart from their lines

A line only says where a token stands. Two tokens are the same up to lines when they are equal
without them; they are then of the same kind, and either can stand where the other does.
-/

namespace Scriptlet

/-- A token without its line. -/
def Token.withoutLine (token : Token) : Token :=
  { token with line := 0 }

namespace Token

@[simp]
theorem withoutLine_kind (token : Token) : token.withoutLine.kind = token.kind := rfl

@[simp]
theorem withoutLine_lexeme (token : Token) : token.withoutLine.lexeme = token.lexeme := rfl

@[simp]
theorem withoutLine_literal (token : Token) : token.withoutLine.literal = token.literal := rfl

theorem kind_eq_of_withoutLine {token other : Token}
    (same : other.withoutLine = token.withoutLine) : other.kind = token.kind := by
  rw [← other.withoutLine_kind, same, token.withoutLine_kind]

theorem literal_eq_of_withoutLine {token other : Token}
    (same : other.withoutLine = token.withoutLine) : other.literal = token.literal := by
  rw [← other.withoutLine_literal, same, token.withoutLine_literal]

namespace OfKind

variable {kind : Token.Kind}

/-- A token of a known kind without its line. -/
def withoutLine (known : Token.OfKind kind) : Token.OfKind kind :=
  ⟨known.token.withoutLine, known.kind_eq⟩

@[simp]
theorem withoutLine_lexeme (known : Token.OfKind kind) :
    known.withoutLine.lexeme = known.lexeme := rfl

theorem lexeme_eq_of_withoutLine {known other : Token.OfKind kind}
    (same : other.withoutLine = known.withoutLine) : other.lexeme = known.lexeme := by
  rw [← other.withoutLine_lexeme, same, known.withoutLine_lexeme]

theorem exists_of_withoutLine {known : Token.OfKind kind} {token : Token}
    (same : token.withoutLine = known.token.withoutLine) :
    ∃ other : Token.OfKind kind, other.token = token ∧ other.withoutLine = known.withoutLine := by
  have kind_eq := (kind_eq_of_withoutLine same).trans known.kind_eq
  exact ⟨⟨token, kind_eq⟩, rfl, by simp only [withoutLine, same]⟩

end OfKind

end Token

namespace Operator

variable {Family : Type} {kindOf : Family → Token.Kind}

/-- An operator without the line of its token. -/
def withoutLine (operator : Operator kindOf) : Operator kindOf :=
  ⟨operator.meaning, operator.token.withoutLine, operator.kind_eq⟩

theorem exists_of_withoutLine {operator : Operator kindOf} {token : Token}
    (same : token.withoutLine = operator.token.withoutLine) :
    ∃ other : Operator kindOf, other.token = token ∧
      other.withoutLine = operator.withoutLine := by
  have kind_eq := (Token.kind_eq_of_withoutLine same).trans operator.kind_eq
  exact ⟨⟨operator.meaning, token, kind_eq⟩, rfl, by simp only [withoutLine, same]⟩

@[simp]
theorem withoutLine_meaning (operator : Operator kindOf) :
    operator.withoutLine.meaning = operator.meaning := rfl

theorem meaning_eq_of_withoutLine {operator other : Operator kindOf}
    (same : other.withoutLine = operator.withoutLine) : other.meaning = operator.meaning := by
  rw [← other.withoutLine_meaning, same, operator.withoutLine_meaning]

end Operator

end Scriptlet
