import Mathlib.Data.List.Forall2
import Scriptlet.Proofs.Grammar.Statement
import Scriptlet.Proofs.Token.Line

/-!
# Derivations apart from lines

The grammar does not look at lines. Tokens that are the same up to lines as derived ones have a
derivation too, and its tree is the same up to the lines of the tokens it keeps.
-/

namespace Scriptlet

namespace Expr

mutual

/-- An expression without the lines of its tokens. -/
def withoutLines : Expr → Expr
  | .literal value => .literal value
  | .reference name => .reference name.withoutLine
  | .grouping inner => .grouping inner.withoutLines
  | .unary operator operand => .unary operator.withoutLine operand.withoutLines
  | .binary left operator right =>
      .binary left.withoutLines operator.withoutLine right.withoutLines
  | .logical left operator right =>
      .logical left.withoutLines operator.withoutLine right.withoutLines
  | .assign name value => .assign name.withoutLine value.withoutLines
  | .call callee paren arguments =>
      .call callee.withoutLines paren.withoutLine (listWithoutLines arguments)

/-- Expressions without the lines of their tokens. -/
def listWithoutLines : List Expr → List Expr
  | [] => []
  | argument :: others => argument.withoutLines :: listWithoutLines others

end

theorem listWithoutLines_eq (arguments : List Expr) :
    listWithoutLines arguments = arguments.map withoutLines := by
  induction arguments with
  | nil => rfl
  | cons argument others ih => rw [listWithoutLines, ih, List.map_cons]

/-- Only a name is a name apart from its line. -/
theorem exists_reference_of_withoutLines {tree : Expr} {name : Name}
    (same : tree.withoutLines = .reference name) : ∃ own, tree = .reference own := by
  cases tree with
  | reference own => exact ⟨own, rfl⟩
  | _ => simp [withoutLines] at same

end Expr

namespace Grammar

variable {tolerated : Tolerance}

/-- Token sequences that are the same up to lines. -/
abbrev SameTokens (others tokens : List Token) : Prop :=
  others.map Token.withoutLine = tokens.map Token.withoutLine

namespace SameTokens

theorem exists_cons {others tokens : List Token} {token : Token}
    (same : SameTokens others (token :: tokens)) :
    ∃ other later, others = other :: later ∧ other.withoutLine = token.withoutLine ∧
      SameTokens later tokens :=
  List.map_eq_cons_iff.mp same

theorem exists_append {others left right : List Token}
    (same : SameTokens others (left ++ right)) :
    ∃ first second, others = first ++ second ∧ SameTokens first left ∧ SameTokens second right := by
  rw [SameTokens, List.map_append, List.map_eq_append_iff] at same
  exact same

theorem eq_nil {others : List Token} (same : SameTokens others []) : others = [] :=
  List.map_eq_nil_iff.mp same

theorem exists_known {others tokens : List Token} {kind : Token.Kind} {known : Token.OfKind kind}
    (same : SameTokens others (known.token :: tokens)) :
    ∃ (other : Token.OfKind kind) (later : List Token), others = other.token :: later ∧
      other.withoutLine = known.withoutLine ∧ SameTokens later tokens := by
  rcases same.exists_cons with ⟨_, later, rfl, token_same, later_same⟩
  rcases Token.OfKind.exists_of_withoutLine token_same with ⟨other, rfl, other_eq⟩
  exact ⟨other, later, rfl, other_eq, later_same⟩

theorem exists_operator {others tokens : List Token} {Family : Type}
    {kindOf : Family → Token.Kind} {operator : Operator kindOf}
    (same : SameTokens others (operator.token :: tokens)) :
    ∃ (other : Operator kindOf) (later : List Token), others = other.token :: later ∧
      other.withoutLine = operator.withoutLine ∧ SameTokens later tokens := by
  rcases same.exists_cons with ⟨_, later, rfl, token_same, later_same⟩
  rcases Operator.exists_of_withoutLine token_same with ⟨other, rfl, other_eq⟩
  exact ⟨other, later, rfl, other_eq, later_same⟩

end SameTokens

/-- Categories that go on with expressions that are the same up to lines, if they go on with any. -/
inductive Category.Alike : Category → Category → Prop where
  | whole {category : Category} (whole : category.left? = none) : Alike category category
  | chain {level : Level} {other left : Expr} (same : other.withoutLines = left.withoutLines) :
      Alike (.chain level other) (.chain level left)
  | calls {other callee : Expr} (same : other.withoutLines = callee.withoutLines) :
      Alike (.calls other) (.calls callee)

theorem Category.Alike.eq_of_whole {other category : Category} (alike : other.Alike category)
    (whole : category.left? = none) : other = category := by
  cases alike with
  | whole => rfl
  | chain | calls => cases whole

/-- Whether tokens derive an expression that is the same up to lines as a tree. -/
abbrev DerivesLike (tolerated : Tolerance) (category : Category) (tokens : List Token)
    (tree : Expr) : Prop :=
  ∃ other, DerivesExpr tolerated category tokens other ∧ other.withoutLines = tree.withoutLines

/-- What matches the images of some items is the images of items that match them. -/
theorem exists_map_of_forall₂ {Item Own Image Other : Type} {matches_ : Other → Image → Prop}
    {image : Item → Image} {ownImage : Own → Other} {fits : Own → Item → Prop}
    {items : List Item} {others : List Other}
    (matched : List.Forall₂ matches_ others (items.map image))
    (each : ∀ item ∈ items, ∀ other, matches_ other (image item) →
      ∃ own, ownImage own = other ∧ fits own item) :
    ∃ owns : List Own, owns.map ownImage = others ∧ List.Forall₂ fits owns items := by
  rw [List.forall₂_map_right_iff] at matched
  induction matched with
  | nil => exact ⟨[], rfl, .nil⟩
  | cons head_matches _ ih =>
      rw [List.forall_mem_cons] at each
      rcases each.1 _ head_matches with ⟨own, own_eq, own_fits⟩
      rcases ih each.2 with ⟨owns, owns_eq, owns_fit⟩
      exact ⟨own :: owns, by rw [List.map_cons, own_eq, owns_eq], .cons own_fits owns_fit⟩

theorem map_eq_map_of_forall₂ {Item Own Image : Type} {image : Item → Image}
    {ownImage : Own → Image} {items : List Item} {owns : List Own}
    (alike : List.Forall₂ (fun own item => ownImage own = image item) owns items) :
    owns.map ownImage = items.map image := by
  induction alike with
  | nil => rfl
  | cons head_eq _ ih => rw [List.map_cons, List.map_cons, head_eq, ih]

/-- Other tokens that are the same up to lines are separated in the same way. -/
theorem Separated.exists_same {pieces : List (List Token)} {inner others : List Token}
    (separated : Separated pieces inner) (same : SameTokens others inner) :
    ∃ otherPieces, Separated otherPieces others ∧ List.Forall₂ SameTokens otherPieces pieces := by
  induction separated generalizing others with
  | empty =>
      rcases same.eq_nil with rfl
      exact ⟨[], .empty, .nil⟩
  | single => exact ⟨[others], .single, .cons same .nil⟩
  | comma _ ih =>
      rcases same.exists_append with ⟨first, _, rfl, first_same, same⟩
      rcases same.exists_known with ⟨otherComma, later, rfl, -, later_same⟩
      rcases ih later_same with ⟨otherPieces, otherSeparated, pieces_same⟩
      cases pieces_same with
      | cons next_same pieces_same =>
          exact ⟨_, .comma otherSeparated, .cons first_same (.cons next_same pieces_same)⟩

/-- Arguments between other tokens that are the same up to lines. -/
theorem Separated.exists_alike {arguments : List (List Token × Expr)} {inner others : List Token}
    (separated : Separated (arguments.map Prod.fst) inner) (same : SameTokens others inner)
    (each : ∀ argument ∈ arguments, ∀ tokens, SameTokens tokens argument.1 →
      DerivesLike tolerated .assignment tokens argument.2) :
    ∃ otherArguments : List (List Token × Expr),
      Separated (otherArguments.map Prod.fst) others ∧
      (∀ argument ∈ otherArguments, DerivesExpr tolerated .assignment argument.1 argument.2) ∧
      otherArguments.length = arguments.length ∧
      Expr.listWithoutLines (otherArguments.map Prod.snd)
        = Expr.listWithoutLines (arguments.map Prod.snd) := by
  rcases separated.exists_same same with ⟨pieces, otherSeparated, pieces_same⟩
  have found : ∀ argument ∈ arguments, ∀ tokens, SameTokens tokens argument.1 →
      ∃ other : List Token × Expr, other.1 = tokens ∧
        (DerivesExpr tolerated .assignment other.1 other.2 ∧
          other.2.withoutLines = argument.2.withoutLines) := by
    intro argument argument_mem tokens tokens_same
    rcases each argument argument_mem tokens tokens_same with ⟨tree, derives, tree_eq⟩
    exact ⟨(tokens, tree), rfl, derives, tree_eq⟩
  rcases exists_map_of_forall₂ pieces_same found with ⟨otherArguments, rfl, alike⟩
  rcases (List.forall₂_and_left _ _).mp alike with ⟨derive, trees_alike⟩
  refine ⟨otherArguments, otherSeparated, derive, alike.length_eq, ?_⟩
  rw [Expr.listWithoutLines_eq, Expr.listWithoutLines_eq, List.map_map, List.map_map]
  exact map_eq_map_of_forall₂ trees_alike

/-- Tokens that are the same up to lines derive the same expression up to lines. -/
theorem DerivesExpr.transport {category : Category} {tokens : List Token} {tree : Expr}
    (derives : DerivesExpr tolerated category tokens tree) {other : Category}
    (alike : other.Alike category) {others : List Token} (same : SameTokens others tokens) :
    DerivesLike tolerated other others tree := by
  induction derives generalizing other others with
  | @assign name equals tokens value _ ih =>
      rcases alike.eq_of_whole rfl with rfl
      rcases same.exists_known with ⟨otherName, _, rfl, name_eq, same⟩
      rcases same.exists_known with ⟨otherEquals, later, rfl, -, same⟩
      rcases ih (.whole rfl) same with ⟨otherValue, derives, value_eq⟩
      exact ⟨_, .assign derives, by simp only [Expr.withoutLines, name_eq, value_eq]⟩
  | @misassign equals left right target value allowed _ not_reference _ target_ih value_ih =>
      rcases alike.eq_of_whole rfl with rfl
      rcases same.exists_append with ⟨first, _, rfl, first_same, same⟩
      rcases same.exists_known with ⟨otherEquals, later, rfl, -, same⟩
      rcases target_ih (.whole rfl) first_same with ⟨otherTarget, target_derives, target_eq⟩
      rcases value_ih (.whole rfl) same with ⟨otherValue, value_derives, -⟩
      refine ⟨otherTarget, .misassign allowed target_derives ?_ value_derives, target_eq⟩
      rintro name rfl
      rcases Expr.exists_reference_of_withoutLines target_eq.symm with ⟨own, rfl⟩
      exact not_reference own rfl
  | unassigned _ ih =>
      rcases alike.eq_of_whole rfl with rfl
      rcases ih (.whole rfl) same with ⟨tree, derives, tree_eq⟩
      exact ⟨tree, .unassigned derives, tree_eq⟩
  | @level level tokens others first tree _ _ first_ih others_ih =>
      rcases alike.eq_of_whole rfl with rfl
      rcases same.exists_append with ⟨_, _, rfl, first_same, others_same⟩
      rcases first_ih (.whole (left?_operand level)) first_same with
        ⟨otherFirst, first_derives, first_eq⟩
      rcases others_ih (.chain first_eq) others_same with ⟨otherTree, others_derive, tree_eq⟩
      exact ⟨otherTree, .level first_derives others_derive, tree_eq⟩
  | chainEnd =>
      rcases same.eq_nil with rfl
      cases alike with
      | whole whole => cases whole
      | chain left_same => exact ⟨_, .chainEnd, left_same⟩
  | @chainLogical level operator tokens others left right tree operator_mem _ _ right_ih
      others_ih =>
      rcases same.exists_operator with ⟨otherOperator, _, rfl, operator_eq, same⟩
      rcases same.exists_append with ⟨_, _, rfl, right_same, others_same⟩
      rcases right_ih (.whole (left?_operand level)) right_same with
        ⟨otherRight, right_derives, right_eq⟩
      have meaning_eq := Operator.meaning_eq_of_withoutLine operator_eq
      cases alike with
      | whole whole => cases whole
      | @chain _ otherLeft _ left_same =>
          have node_eq : (Expr.logical otherLeft otherOperator otherRight).withoutLines
              = (Expr.logical left operator right).withoutLines := by
            simp only [Expr.withoutLines, left_same, operator_eq, right_eq]
          rcases others_ih (.chain node_eq) others_same with ⟨otherTree, others_derive, tree_eq⟩
          exact ⟨otherTree,
            .chainLogical (meaning_eq ▸ operator_mem) right_derives others_derive, tree_eq⟩
  | @chainBinary level operator tokens others left right tree operator_mem _ _ right_ih
      others_ih =>
      rcases same.exists_operator with ⟨otherOperator, _, rfl, operator_eq, same⟩
      rcases same.exists_append with ⟨_, _, rfl, right_same, others_same⟩
      rcases right_ih (.whole (left?_operand level)) right_same with
        ⟨otherRight, right_derives, right_eq⟩
      have meaning_eq := Operator.meaning_eq_of_withoutLine operator_eq
      cases alike with
      | whole whole => cases whole
      | @chain _ otherLeft _ left_same =>
          have node_eq : (Expr.binary otherLeft otherOperator otherRight).withoutLines
              = (Expr.binary left operator right).withoutLines := by
            simp only [Expr.withoutLines, left_same, operator_eq, right_eq]
          rcases others_ih (.chain node_eq) others_same with ⟨otherTree, others_derive, tree_eq⟩
          exact ⟨otherTree,
            .chainBinary (meaning_eq ▸ operator_mem) right_derives others_derive, tree_eq⟩
  | @unary operator tokens operand _ ih =>
      rcases alike.eq_of_whole rfl with rfl
      rcases same.exists_operator with ⟨otherOperator, _, rfl, operator_eq, same⟩
      rcases ih (.whole rfl) same with ⟨otherOperand, derives, operand_eq⟩
      exact ⟨_, .unary derives, by simp only [Expr.withoutLines, operator_eq, operand_eq]⟩
  | operand _ ih =>
      rcases alike.eq_of_whole rfl with rfl
      rcases ih (.whole rfl) same with ⟨tree, derives, tree_eq⟩
      exact ⟨tree, .operand derives, tree_eq⟩
  | call _ _ callee_ih others_ih =>
      rcases alike.eq_of_whole rfl with rfl
      rcases same.exists_append with ⟨_, _, rfl, callee_same, others_same⟩
      rcases callee_ih (.whole rfl) callee_same with ⟨otherCallee, callee_derives, callee_eq⟩
      rcases others_ih (.calls callee_eq) others_same with ⟨otherTree, others_derive, tree_eq⟩
      exact ⟨otherTree, .call callee_derives others_derive, tree_eq⟩
  | callsEnd =>
      rcases same.eq_nil with rfl
      cases alike with
      | whole whole => cases whole
      | calls callee_same => exact ⟨_, .callsEnd, callee_same⟩
  | @calls leftParen rightParen arguments inner others callee tree separated _ few _ arguments_ih
      others_ih =>
      rcases same.exists_known with ⟨otherLeft, _, rfl, -, same⟩
      rcases same.exists_append with ⟨_, _, rfl, inner_same, same⟩
      rcases same.exists_known with ⟨otherRight, _, rfl, paren_eq, others_same⟩
      rcases separated.exists_alike inner_same fun argument argument_mem tokens tokens_same =>
          arguments_ih argument argument_mem (.whole rfl) tokens_same with
        ⟨otherArguments, otherSeparated, derive, length_eq, arguments_eq⟩
      cases alike with
      | whole whole => cases whole
      | @calls otherCallee _ callee_same =>
          have node_eq : (Expr.call otherCallee otherRight (otherArguments.map Prod.snd)).withoutLines
              = (Expr.call callee rightParen (arguments.map Prod.snd)).withoutLines := by
            simp only [Expr.withoutLines, callee_same, paren_eq, arguments_eq]
          rcases others_ih (.calls node_eq) others_same with ⟨otherTree, others_derive, tree_eq⟩
          exact ⟨otherTree, .calls otherSeparated derive (length_eq ▸ few) others_derive, tree_eq⟩
  | @literal token kind_mem =>
      rcases alike.eq_of_whole rfl with rfl
      rcases same.exists_cons with ⟨otherToken, _, rfl, token_same, same⟩
      rcases same.eq_nil with rfl
      have kind_eq := Token.kind_eq_of_withoutLine token_same
      refine ⟨_, .literal (kind_eq ▸ kind_mem), ?_⟩
      rw [Token.literal_eq_of_withoutLine token_same]
  | reference =>
      rcases alike.eq_of_whole rfl with rfl
      rcases same.exists_known with ⟨otherName, _, rfl, name_eq, same⟩
      rcases same.eq_nil with rfl
      exact ⟨_, .reference, by simp only [Expr.withoutLines, name_eq]⟩
  | @grouping leftParen rightParen tokens inner _ ih =>
      rcases alike.eq_of_whole rfl with rfl
      rcases same.exists_known with ⟨otherLeft, _, rfl, -, same⟩
      rcases same.exists_append with ⟨_, _, rfl, inner_same, same⟩
      rcases same.exists_known with ⟨otherRight, _, rfl, -, same⟩
      rcases same.eq_nil with rfl
      rcases ih (.whole rfl) inner_same with ⟨otherInner, derives, inner_eq⟩
      exact ⟨_, .grouping derives, by simp only [Expr.withoutLines, inner_eq]⟩

end Grammar

end Scriptlet
