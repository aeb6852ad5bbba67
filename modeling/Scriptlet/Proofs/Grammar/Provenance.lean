import Scriptlet.Proofs.Grammar.Expression

/-!
# Where the parts of a tree come from

The tokens that an expression keeps, and the values of its literals, are those of tokens that it was
derived from. What holds of all of these holds throughout the tree.
-/

namespace Scriptlet

namespace Expr

variable (onToken : Token → Prop) (onLiteral : Literal → Prop)

mutual

/-- Whether the tokens that an expression keeps and the literals in it have given properties. -/
def All : Expr → Prop
  | .literal value => onLiteral value
  | .reference name => onToken name.token
  | .grouping inner => inner.All
  | .unary operator operand => onToken operator.token ∧ operand.All
  | .binary left operator right => left.All ∧ onToken operator.token ∧ right.All
  | .logical left operator right => left.All ∧ onToken operator.token ∧ right.All
  | .assign name value => onToken name.token ∧ value.All
  | .call callee paren arguments => callee.All ∧ onToken paren.token ∧ ListAll arguments

/-- Whether the tokens and literals of expressions have given properties. -/
def ListAll : List Expr → Prop
  | [] => True
  | argument :: others => argument.All ∧ ListAll others

end

theorem listAll_iff {arguments : List Expr} :
    ListAll onToken onLiteral arguments
      ↔ ∀ argument ∈ arguments, argument.All onToken onLiteral := by
  induction arguments with
  | nil => simp [ListAll]
  | cons argument others ih => simp [ListAll, ih]

mutual

/-- The literals of an expression, from left to right. -/
def literals : Expr → List Literal
  | .literal value => [value]
  | .reference _ => []
  | .grouping inner => inner.literals
  | .unary _ operand => operand.literals
  | .binary left _ right => left.literals ++ right.literals
  | .logical left _ right => left.literals ++ right.literals
  | .assign _ value => value.literals
  | .call callee _ arguments => callee.literals ++ listLiterals arguments

/-- The literals of arguments. -/
def listLiterals : List Expr → List Literal
  | [] => []
  | argument :: others => argument.literals ++ listLiterals others

end

variable {onToken onLiteral} {also : Literal → Prop}

mutual

/-- What holds of all literals in an expression can be said of it together with the rest. -/
theorem All.and_literals : ∀ tree : Expr, tree.All onToken onLiteral →
    (∀ value ∈ tree.literals, also value) →
    tree.All onToken fun value => onLiteral value ∧ also value
  | .literal value, all, holds => ⟨all, holds value List.mem_cons_self⟩
  | .reference _, all, _ => all
  | .grouping inner, all, holds => All.and_literals inner all holds
  | .unary _ operand, all, holds => ⟨all.1, All.and_literals operand all.2 holds⟩
  | .binary left _ right, all, holds => by
      have ⟨left_holds, right_holds⟩ := List.forall_mem_append.mp holds
      exact ⟨All.and_literals left all.1 left_holds, all.2.1,
        All.and_literals right all.2.2 right_holds⟩
  | .logical left _ right, all, holds => by
      have ⟨left_holds, right_holds⟩ := List.forall_mem_append.mp holds
      exact ⟨All.and_literals left all.1 left_holds, all.2.1,
        All.and_literals right all.2.2 right_holds⟩
  | .assign _ value, all, holds => ⟨all.1, All.and_literals value all.2 holds⟩
  | .call callee _ arguments, all, holds => by
      have ⟨callee_holds, arguments_hold⟩ := List.forall_mem_append.mp holds
      exact ⟨All.and_literals callee all.1 callee_holds, all.2.1,
        ListAll.and_literals arguments all.2.2 arguments_hold⟩

theorem ListAll.and_literals : ∀ arguments : List Expr, ListAll onToken onLiteral arguments →
    (∀ value ∈ listLiterals arguments, also value) →
    ListAll onToken (fun value => onLiteral value ∧ also value) arguments
  | [], _, _ => trivial
  | argument :: others, all, holds => by
      have ⟨argument_holds, others_hold⟩ := List.forall_mem_append.mp holds
      exact ⟨All.and_literals argument all.1 argument_holds,
        ListAll.and_literals others all.2 others_hold⟩

end

end Expr

namespace Grammar

variable {tolerated : Tolerance} {category : Category} {tokens : List Token} {tree : Expr}
  {onToken : Token → Prop} {onLiteral : Literal → Prop}

/-- What holds of the tokens and of the values they denote holds throughout the derived tree. -/
theorem DerivesExpr.all (derives : DerivesExpr tolerated category tokens tree)
    (tokens_hold : ∀ token ∈ tokens, onToken token)
    (literals_hold : ∀ token ∈ tokens, token.kind ∈ literalKinds →
      onLiteral (token.literal.getD .nil))
    (left_holds : ∀ left ∈ category.left?, left.All onToken onLiteral) :
    tree.All onToken onLiteral := by
  have no_left : ∀ {category : Category}, category.left? = none →
      ∀ left ∈ category.left?, left.All onToken onLiteral := by
    intro category whole left left_mem
    rw [whole] at left_mem
    cases left_mem
  induction derives with
  | @assign name equals tokens value _ ih =>
      simp only [List.forall_mem_cons] at tokens_hold literals_hold
      exact ⟨tokens_hold.1, ih tokens_hold.2.2 literals_hold.2.2 (no_left rfl)⟩
  | misassign _ _ _ _ target_ih =>
      rw [List.forall_mem_append] at tokens_hold literals_hold
      exact target_ih tokens_hold.1 literals_hold.1 (no_left rfl)
  | unassigned _ ih => exact ih tokens_hold literals_hold left_holds
  | @level level _ _ _ _ _ _ first_ih others_ih =>
      rw [List.forall_mem_append] at tokens_hold literals_hold
      have first_all := first_ih tokens_hold.1 literals_hold.1 (no_left (left?_operand level))
      apply others_ih tokens_hold.2 literals_hold.2
      rintro left ⟨⟩
      exact first_all
  | chainEnd | callsEnd => exact left_holds _ rfl
  | @chainLogical level _ _ _ _ _ _ _ _ _ right_ih others_ih
  | @chainBinary level _ _ _ _ _ _ _ _ _ right_ih others_ih =>
      rw [List.forall_mem_cons, List.forall_mem_append] at tokens_hold literals_hold
      have right_all := right_ih tokens_hold.2.1 literals_hold.2.1 (no_left (left?_operand level))
      apply others_ih tokens_hold.2.2 literals_hold.2.2
      rintro left ⟨⟩
      exact ⟨left_holds _ rfl, tokens_hold.1, right_all⟩
  | unary _ ih =>
      rw [List.forall_mem_cons] at tokens_hold literals_hold
      exact ⟨tokens_hold.1, ih tokens_hold.2 literals_hold.2 (no_left rfl)⟩
  | operand _ ih => exact ih tokens_hold literals_hold left_holds
  | call _ _ callee_ih others_ih =>
      rw [List.forall_mem_append] at tokens_hold literals_hold
      have callee_all := callee_ih tokens_hold.1 literals_hold.1 (no_left rfl)
      apply others_ih tokens_hold.2 literals_hold.2
      rintro left ⟨⟩
      exact callee_all
  | @calls _ _ arguments inner _ _ _ separated _ _ _ arguments_ih others_ih =>
      simp only [List.forall_mem_cons, List.forall_mem_append] at tokens_hold literals_hold
      have arguments_all : Expr.ListAll onToken onLiteral (arguments.map Prod.snd) := by
        rw [Expr.listAll_iff]
        intro tree tree_mem
        rcases List.mem_map.mp tree_mem with ⟨argument, argument_mem, rfl⟩
        have among := (separated.sublist argument.1 (List.mem_map_of_mem argument_mem)).subset
        exact arguments_ih argument argument_mem
          (fun token token_mem => tokens_hold.2.1 token (among token_mem))
          (fun token token_mem => literals_hold.2.1 token (among token_mem)) (no_left rfl)
      apply others_ih tokens_hold.2.2.2 literals_hold.2.2.2
      rintro left ⟨⟩
      exact ⟨left_holds _ rfl, tokens_hold.2.2.1, arguments_all⟩
  | literal kind_mem => exact literals_hold _ List.mem_cons_self kind_mem
  | reference => exact tokens_hold _ List.mem_cons_self
  | grouping _ ih =>
      simp only [List.forall_mem_cons, List.forall_mem_append] at tokens_hold literals_hold
      exact ih tokens_hold.2.1 literals_hold.2.1 (no_left rfl)

end Grammar

end Scriptlet
