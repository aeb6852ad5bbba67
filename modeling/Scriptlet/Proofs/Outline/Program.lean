import Scriptlet.Proofs.Outline.Statement
import Scriptlet.Proofs.Session.Joined
import Scriptlet.Proofs.Text.Cut

/-!
# Programs told apart by their outlines

The text of the outlines of a program can be scanned, which gives the outlines back, and they show
the program up to the lines of its tokens, with any local segmentation. Only one difference is not
seen: a condition or increment of a counting loop is shown as `nil` when it is left out and when it
is `nil`. Loops without a condition go on, and loops with the condition `nil` do not start, so what
a program does is not seen from its outline.
-/

namespace Scriptlet

open Text (Segmentation)

namespace Expr

mutual

theorem outline_withoutLines : ∀ tree : Expr, tree.withoutLines.outline = tree.outline
  | .literal _ | .reference _ => rfl
  | .grouping inner => by simp only [withoutLines, outline, outline_withoutLines inner]
  | .unary operator operand => by
      simp only [withoutLines, outline, outline_withoutLines operand]
      rfl
  | .binary left operator right => by
      simp only [withoutLines, outline, outline_withoutLines left, outline_withoutLines right]
      rfl
  | .logical left operator right => by
      simp only [withoutLines, outline, outline_withoutLines left, outline_withoutLines right]
      rfl
  | .assign name value => by
      simp only [withoutLines, outline, outline_withoutLines value, Token.OfKind.withoutLine_lexeme]
  | .call callee _ arguments => by
      simp only [withoutLines, outline, outline_withoutLines callee,
        outlines_withoutLines arguments]

theorem outlines_withoutLines : ∀ arguments : List Expr,
    outlines (listWithoutLines arguments) = outlines arguments
  | [] => rfl
  | argument :: others => by
      simp only [listWithoutLines, outlines, outline_withoutLines argument,
        outlines_withoutLines others]

end

theorem optionalOutline_withoutLines (optional : Option Expr) :
    optionalOutline (optional.map withoutLines) = optionalOutline optional := by
  cases optional with
  | none => rfl
  | some tree => exact tree.outline_withoutLines

end Expr

theorem VariableDeclaration.outline_withoutLines (declaration : VariableDeclaration) :
    declaration.withoutLines.outline = declaration.outline := by
  rcases declaration with ⟨name, _ | tree⟩
  · rfl
  · simp only [withoutLines, outline, Option.map_some, tree.outline_withoutLines,
      Token.OfKind.withoutLine_lexeme]

theorem ForInitializer.outline_withoutLines (initializer : ForInitializer) :
    initializer.withoutLines.outline = initializer.outline := by
  cases initializer with
  | absent => rfl
  | declaration declared => exact declared.outline_withoutLines
  | expression tree => simp only [withoutLines, outline, tree.outline_withoutLines]

namespace Stmt

mutual

theorem outline_withoutLines : ∀ tree : Stmt, tree.withoutLines.outline = tree.outline
  | .expression tree | .print _ tree | .sleep _ tree => by
      simp only [withoutLines, outline, tree.outline_withoutLines]
  | .declareVariable declaration => declaration.outline_withoutLines
  | .declareFunction name parameters body => by
      simp only [withoutLines, outline, outlines_withoutLines body, List.map_map,
        Token.OfKind.withoutLine_lexeme]
      rfl
  | .block statements => by simp only [withoutLines, outline, outlines_withoutLines statements]
  | .ifThen condition consequence => by
      simp only [withoutLines, outline, condition.outline_withoutLines,
        outline_withoutLines consequence]
  | .ifElse condition consequence alternative => by
      simp only [withoutLines, outline, condition.outline_withoutLines,
        outline_withoutLines consequence, outline_withoutLines alternative]
  | .whileLoop condition body => by
      simp only [withoutLines, outline, condition.outline_withoutLines, outline_withoutLines body]
  | .forLoop initializer condition increment body => by
      simp only [withoutLines, outline, initializer.outline_withoutLines,
        Expr.optionalOutline_withoutLines, outline_withoutLines body]
  | .breakLoop | .continueLoop => rfl
  | .returnValue none => rfl
  | .returnValue (some tree) => by
      simp only [withoutLines, outline, Option.map_some, tree.outline_withoutLines]

theorem outlines_withoutLines : ∀ statements : List Stmt,
    outlines (listWithoutLines statements) = outlines statements
  | [] => rfl
  | statement :: others => by
      simp only [listWithoutLines, outlines, outline_withoutLines statement,
        outlines_withoutLines others]

end

mutual

theorem outline_filled : ∀ tree : Stmt, tree.filled.outline = tree.outline
  | .expression _ | .print _ _ | .declareVariable _ | .breakLoop | .continueLoop | .returnValue _
  | .sleep _ _ => rfl
  | .declareFunction name parameters body => by
      simp only [filled, outline, outlines_filled body]
  | .block statements => by simp only [filled, outline, outlines_filled statements]
  | .ifThen condition consequence => by simp only [filled, outline, outline_filled consequence]
  | .ifElse condition consequence alternative => by
      simp only [filled, outline, outline_filled consequence, outline_filled alternative]
  | .whileLoop condition body => by simp only [filled, outline, outline_filled body]
  | .forLoop initializer condition increment body => by
      have clause (optional : Option Expr) :
          Expr.optionalOutline (some (optional.getD (.literal .nil)))
            = Expr.optionalOutline optional := by
        cases optional <;> rfl
      simp only [filled, outline, outline_filled body, clause]

theorem outlines_filled : ∀ statements : List Stmt,
    outlines (listFilled statements) = outlines statements
  | [] => rfl
  | statement :: others => by
      simp only [listFilled, outlines, outline_filled statement, outlines_filled others]

end

end Stmt

/-- Whether no number of a source is infinite. -/
def HasFiniteNumbers (segmentation : Segmentation) (source : String) : Prop :=
  ∀ token ∈ (Scan.ofString segmentation source).tokens.body, ∀ value ∈ token.literal,
    value.isFinite = true

instance (segmentation : Segmentation) (source : String) :
    Decidable (HasFiniteNumbers segmentation source) :=
  inferInstanceAs (Decidable (∀ token ∈ _, ∀ value ∈ _, _))

/-- The outlines of what is read from a source show it, whatever is reported. -/
theorem HasFiniteNumbers.areShown {segmentation : Segmentation} [segmentation.IsLocal]
    {source : String} (finite : HasFiniteNumbers segmentation source) :
    Stmt.AreShown segmentation
      (Stmt.listWithoutLines (Stmt.listFilled (programOf segmentation source)))
      (Stmt.outlines (programOf segmentation source)) := by
  have derives : Grammar.DerivesProgram (fun _ => True)
      (Scan.ofString segmentation source).tokens.body (programOf segmentation source) :=
    Parser.derivesProgram_parseProgram fun _ _ => trivial
  apply derives.areShown
  intro token token_mem
  exact ⟨⟨source, token_mem⟩, finite token token_mem⟩

/-- With a local segmentation, programs have the same outline exactly if they differ in nothing but
lines and in whether clauses of counting loops are left out or `nil`. -/
theorem programText_eq_iff {segmentation : Segmentation} [isLocal : segmentation.IsLocal]
    {left right : String} (left_finite : HasFiniteNumbers segmentation left)
    (right_finite : HasFiniteNumbers segmentation right) :
    Stmt.programText (programOf segmentation left) = Stmt.programText (programOf segmentation right)
      ↔ Stmt.listWithoutLines (Stmt.listFilled (programOf segmentation left))
        = Stmt.listWithoutLines (Stmt.listFilled (programOf segmentation right)) := by
  have left_shown := left_finite.areShown
  have right_shown := right_finite.areShown
  constructor
  · intro same
    have outlines_eq := Outline.Worded.lines_injective left_shown.worded right_shown.worded same
    apply Option.some.inj
    rw [← left_shown.read, ← right_shown.read, outlines_eq]
  · intro same
    have outlines_eq (statements : List Stmt) :
        Stmt.outlines (Stmt.listWithoutLines (Stmt.listFilled statements))
          = Stmt.outlines statements := by
      rw [Stmt.outlines_withoutLines, Stmt.outlines_filled]
    rw [Stmt.programText, Stmt.programText, ← outlines_eq, same, outlines_eq]

theorem programText_eq_iff_layout :
    HasFiniteNumbers .graphemes "for (;;) print -1.50;" ∧
      HasFiniteNumbers .graphemes "for (;nil;)\n  print - 1.5;" ∧
      Stmt.listWithoutLines (Stmt.listFilled (programOf .graphemes "for (;;) print -1.50;"))
        = Stmt.listWithoutLines
            (Stmt.listFilled (programOf .graphemes "for (;nil;)\n  print - 1.5;")) := by
  have left_finite : HasFiniteNumbers .graphemes "for (;;) print -1.50;" := by decide +kernel
  have right_finite : HasFiniteNumbers .graphemes "for (;nil;)\n  print - 1.5;" := by decide +kernel
  refine ⟨left_finite, right_finite, (programText_eq_iff left_finite right_finite).mp ?_⟩
  decide +kernel

/-- Whether a program is one counting loop with a condition. -/
def isConditionalLoop : List Stmt → Bool
  | [.forLoop _ condition _ _] => condition.isSome
  | _ => false

/-- A loop that never ends and one that never starts have the same outline. -/
theorem programText_not_injective :
    IsClean .graphemes "for (;;) print 1;" ∧ IsClean .graphemes "for (;nil;) print 1;" ∧
      HasFiniteNumbers .graphemes "for (;;) print 1;" ∧
      HasFiniteNumbers .graphemes "for (;nil;) print 1;" ∧
      Stmt.programText (programOf .graphemes "for (;;) print 1;")
        = Stmt.programText (programOf .graphemes "for (;nil;) print 1;") ∧
      Stmt.listWithoutLines (programOf .graphemes "for (;;) print 1;")
        ≠ Stmt.listWithoutLines (programOf .graphemes "for (;nil;) print 1;") := by
  refine ⟨by decide +kernel, by decide +kernel, by decide +kernel, by decide +kernel,
    by decide +kernel, fun same => ?_⟩
  have seen := congrArg isConditionalLoop same
  revert seen
  decide +kernel

end Scriptlet
