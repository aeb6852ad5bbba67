import Scriptlet.Token.Basic

/-!
# Tokens of a known kind

Trees keep the tokens that matter to reports and to printing. The kind of such a token is fixed by
its place in the tree, so the types say it: a token of one kind, or an operator with the token that
stands for it.
-/

namespace Scriptlet

/-- A token of one kind. -/
structure Token.OfKind (kind : Token.Kind) where
  token : Token
  kind_eq : token.kind = kind
  deriving DecidableEq

namespace Token.OfKind

/-- The token, if it is of the kind. -/
def of? (kind : Token.Kind) (token : Token) : Option (Token.OfKind kind) :=
  if same : token.kind = kind then some ⟨token, same⟩ else none

theorem of?_eq_some_iff {kind : Token.Kind} {token : Token} {known : Token.OfKind kind} :
    of? kind token = some known ↔ known.token = token := by
  cases known with
  | mk own kind_eq =>
      by_cases same : token.kind = kind
      · simp [of?, same, eq_comm]
      · simp only [of?, same, dite_false, reduceCtorEq, false_iff]
        rintro rfl
        exact same kind_eq

@[simp]
theorem of?_token {kind : Token.Kind} (known : Token.OfKind kind) :
    of? kind known.token = some known :=
  of?_eq_some_iff.mpr rfl

theorem of?_eq_none_iff {kind : Token.Kind} {token : Token} :
    of? kind token = none ↔ token.kind ≠ kind := by
  by_cases same : token.kind = kind <;> simp [of?, same]

/-- The text of a token of a known kind. -/
def lexeme {kind : Token.Kind} (known : Token.OfKind kind) : String :=
  known.token.lexeme

end Token.OfKind

/-- The name of a variable, a function or a parameter. -/
abbrev Name := Token.OfKind .identifier

/-- An operator of a family, with the token that stands for it. -/
structure Operator {Family : Type} (kindOf : Family → Token.Kind) where
  meaning : Family
  token : Token
  kind_eq : token.kind = kindOf meaning
  deriving DecidableEq

namespace Operator

variable {Family : Type} {kindOf : Family → Token.Kind}

/-- The first of some operators that a token stands for. -/
def of? (kindOf : Family → Token.Kind) (token : Token) : List Family → Option (Operator kindOf)
  | [] => none
  | meaning :: others =>
      if same : token.kind = kindOf meaning then some ⟨meaning, token, same⟩
      else of? kindOf token others

theorem token_eq_of_of? {token : Token} {meanings : List Family} {operator : Operator kindOf}
    (found : of? kindOf token meanings = some operator) :
    operator.token = token ∧ operator.meaning ∈ meanings := by
  induction meanings with
  | nil => cases found
  | cons meaning others ih =>
      by_cases same : token.kind = kindOf meaning
      · simp only [of?, same, dite_true, Option.some.injEq] at found
        subst found
        simp
      · simp only [of?, same, dite_false] at found
        rcases ih found with ⟨token_eq, meaning_mem⟩
        exact ⟨token_eq, List.mem_cons_of_mem _ meaning_mem⟩

theorem of?_eq_none_iff {token : Token} {meanings : List Family} :
    of? kindOf token meanings = none ↔ ∀ meaning ∈ meanings, token.kind ≠ kindOf meaning := by
  induction meanings with
  | nil => simp [of?]
  | cons meaning others ih => by_cases same : token.kind = kindOf meaning <;> simp [of?, same, ih]

/-- An operator is found by its token where kinds tell the operators of the family apart. -/
theorem of?_token (injective : ∀ left right, kindOf left = kindOf right → left = right)
    {meanings : List Family} {operator : Operator kindOf} (meaning_mem : operator.meaning ∈ meanings) :
    of? kindOf operator.token meanings = some operator := by
  cases found : of? kindOf operator.token meanings with
  | none => exact absurd operator.kind_eq (of?_eq_none_iff.mp found _ meaning_mem)
  | some other =>
      have token_eq := (token_eq_of_of? found).1
      cases other with
      | mk meaning token kind_eq =>
          cases operator with
          | mk ownMeaning ownToken own_kind_eq =>
              simp only at token_eq
              subst token_eq
              have meaning_eq := injective _ _ (kind_eq.symm.trans own_kind_eq)
              subst meaning_eq
              rfl

/-- The text of the operator. -/
def lexeme (operator : Operator kindOf) : String :=
  operator.token.lexeme

end Operator

end Scriptlet
