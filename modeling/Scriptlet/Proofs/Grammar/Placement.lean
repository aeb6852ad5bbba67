import Scriptlet.Proofs.Parser.StatementReading

/-!
# Where jumps stand

A statement is well placed if each of its jumps has a loop or a function around it to leave. The
body of a function is well placed on its own: a loop around the declaration does not count.

Reading gives well placed statements whenever no misplaced jump is reported, whatever else is.
-/

namespace Scriptlet

open Grammar

/-- Whether a cause says that a jump is misplaced. -/
def SyntaxError.Cause.isMisplacement : SyntaxError.Cause → Bool
  | .jumpOutsideLoop _ | .returnOutsideFunction => true
  | _ => false

/-- Statements whose jumps all have somewhere to go, in surroundings. -/
inductive Stmt.WellPlaced : Surroundings → Stmt → Prop where
  | expression {surroundings : Surroundings} {value : Expr} :
      WellPlaced surroundings (.expression value)
  | print {surroundings : Surroundings} {keyword : Token.OfKind .printWord} {value : Expr} :
      WellPlaced surroundings (.print keyword value)
  | sleep {surroundings : Surroundings} {keyword : Token.OfKind .sleepWord} {duration : Expr} :
      WellPlaced surroundings (.sleep keyword duration)
  | declareVariable {surroundings : Surroundings} {declaration : VariableDeclaration} :
      WellPlaced surroundings (.declareVariable declaration)
  | declareFunction {surroundings : Surroundings} {name : Name} {parameters : List Name}
      {body : List Stmt}
      (body_placed : ∀ statement ∈ body, WellPlaced ⟨false, true⟩ statement) :
      WellPlaced surroundings (.declareFunction name parameters body)
  | block {surroundings : Surroundings} {statements : List Stmt}
      (statements_placed : ∀ statement ∈ statements, WellPlaced surroundings statement) :
      WellPlaced surroundings (.block statements)
  | ifThen {surroundings : Surroundings} {condition : Expr} {consequence : Stmt}
      (consequence_placed : WellPlaced surroundings consequence) :
      WellPlaced surroundings (.ifThen condition consequence)
  | ifElse {surroundings : Surroundings} {condition : Expr} {consequence alternative : Stmt}
      (consequence_placed : WellPlaced surroundings consequence)
      (alternative_placed : WellPlaced surroundings alternative) :
      WellPlaced surroundings (.ifElse condition consequence alternative)
  | whileLoop {surroundings : Surroundings} {condition : Expr} {body : Stmt}
      (body_placed : WellPlaced ⟨true, surroundings.inFunction⟩ body) :
      WellPlaced surroundings (.whileLoop condition body)
  | forLoop {surroundings : Surroundings} {initializer : ForInitializer}
      {condition increment : Option Expr} {body : Stmt}
      (body_placed : WellPlaced ⟨true, surroundings.inFunction⟩ body) :
      WellPlaced surroundings (.forLoop initializer condition increment body)
  | breakLoop {surroundings : Surroundings} (placed : surroundings.inLoop = true) :
      WellPlaced surroundings .breakLoop
  | continueLoop {surroundings : Surroundings} (placed : surroundings.inLoop = true) :
      WellPlaced surroundings .continueLoop
  | returnValue {surroundings : Surroundings} {value : Option Expr}
      (placed : surroundings.inFunction = true) :
      WellPlaced surroundings (.returnValue value)

namespace Grammar

/-- Everything but a misplaced jump is tolerated. -/
def exceptMisplacement : Tolerance := fun cause => cause.isMisplacement = false

theorem jumpOutsideLoop_excluded (word : String) :
    ¬ exceptMisplacement (.jumpOutsideLoop word) := by
  simp [exceptMisplacement, SyntaxError.Cause.isMisplacement]

theorem returnOutsideFunction_excluded : ¬ exceptMisplacement .returnOutsideFunction := by
  simp [exceptMisplacement, SyntaxError.Cause.isMisplacement]

variable {surroundings : Surroundings} {tokens : List Token}

theorem wellPlaced_filterMap {parts : List Part}
    (parts_placed : ∀ part ∈ parts, ∀ statement ∈ part.2,
      Stmt.WellPlaced surroundings statement) :
    ∀ statement ∈ parts.filterMap Prod.snd, Stmt.WellPlaced surroundings statement := by
  intro statement statement_mem
  rcases List.mem_filterMap.mp statement_mem with ⟨part, part_mem, part_eq⟩
  exact parts_placed part part_mem statement part_eq

theorem DerivesStmt.wellPlaced {form : Form} {tree : Stmt}
    (derives : DerivesStmt exceptMisplacement form surroundings tokens tree) :
    tree.WellPlaced surroundings := by
  induction derives with
  | declareVariable => exact .declareVariable
  | declareFunction _ _ _ _ ih => exact .declareFunction (wellPlaced_filterMap ih)
  | undeclared _ ih => exact ih
  | expression => exact .expression
  | print => exact .print
  | sleep => exact .sleep
  | ifThen _ _ ih => exact .ifThen ih
  | ifElse _ _ _ _ consequenceIh alternativeIh => exact .ifElse consequenceIh alternativeIh
  | whileLoop _ _ ih => exact .whileLoop ih
  | forLoop _ _ _ _ ih => exact .forLoop ih
  | breakLoop placed => exact .breakLoop (placed.resolve_right (jumpOutsideLoop_excluded _))
  | continueLoop placed =>
      exact .continueLoop (placed.resolve_right (jumpOutsideLoop_excluded _))
  | returnValue placed _ =>
      exact .returnValue (placed.resolve_right returnOutsideFunction_excluded)
  | block _ _ ih => exact .block (wellPlaced_filterMap ih)

theorem DerivesProgram.wellPlaced {program : List Stmt}
    (derives : DerivesProgram exceptMisplacement tokens program) :
    ∀ statement ∈ program, statement.WellPlaced ⟨false, false⟩ := by
  rcases derives with ⟨parts, derive, _, _, rfl⟩
  apply wellPlaced_filterMap
  intro part part_mem statement statement_mem
  exact (derive part part_mem statement statement_mem).wellPlaced

end Grammar

theorem Parser.wellPlaced_parseProgram {tokens : List Token}
    (placed : ∀ error ∈ (parseProgram tokens).2, error.cause.isMisplacement = false) :
    ∀ statement ∈ (parseProgram tokens).1, statement.WellPlaced ⟨false, false⟩ := by
  have derives : DerivesProgram exceptMisplacement tokens (parseProgram tokens).1 :=
    derivesProgram_parseProgram placed
  exact derives.wellPlaced

end Scriptlet
