import Scriptlet.Proofs.Parser.StatementReading

/-!
# Where declarations stand

Branches and loop bodies run in the frame of the statement around them. The grammar has no
declaration there, so what a statement declares in the frame that it runs in is its own name, if it is
a declaration. This is so for all that is made of any tokens, faulty ones included.
-/

namespace Scriptlet

open Grammar

namespace Stmt

/-- The name that a statement declares itself, other than in its parts. -/
def declared : Stmt → Option String
  | .declareVariable declaration => some declaration.name.lexeme
  | .declareFunction name _ _ => some name.lexeme
  | .expression _ | .print _ _ | .block _ | .ifThen _ _ | .ifElse _ _ _ | .whileLoop _ _
  | .forLoop _ _ _ _ | .breakLoop | .continueLoop | .returnValue _ | .sleep _ _ => none

/-- A statement and its parts that run in the same frame declare no names but some. -/
def DeclaresOnly (allowed : String → Prop) : Stmt → Prop
  | .declareVariable declaration => allowed declaration.name.lexeme
  | .declareFunction name _ _ => allowed name.lexeme
  | .ifThen _ consequence => consequence.DeclaresOnly allowed
  | .ifElse _ consequence alternative =>
      consequence.DeclaresOnly allowed ∧ alternative.DeclaresOnly allowed
  | .whileLoop _ body | .forLoop _ _ _ body => body.DeclaresOnly allowed
  | .expression _ | .print _ _ | .block _ | .breakLoop | .continueLoop | .returnValue _
  | .sleep _ _ => True

/-- Neither a statement nor any of its parts that run in the same frame declares something. -/
abbrev DeclaresNothing (statement : Stmt) : Prop :=
  statement.DeclaresOnly fun _ => False

/-- The statements that a statement is put together from. -/
def parts : Stmt → List Stmt
  | .declareFunction _ _ body => body
  | .block statements => statements
  | .ifThen _ consequence => [consequence]
  | .ifElse _ consequence alternative => [consequence, alternative]
  | .whileLoop _ body | .forLoop _ _ _ body => [body]
  | .expression _ | .print _ _ | .declareVariable _ | .breakLoop | .continueLoop
  | .returnValue _ | .sleep _ _ => []

/-- Statements that are made of some tokens, at the top level or within another statement. The
tokens may have faults. -/
inductive Produced : Stmt → Prop where
  | program {tokens : List Token} {statement : Stmt}
      (statement_mem : statement ∈ (Parser.parseProgram tokens).1) : Produced statement
  | part {statement part : Stmt} (produced : Produced statement)
      (part_mem : part ∈ statement.parts) : Produced part

theorem DeclaresOnly.mono {allowed weaker : String → Prop} {statement : Stmt}
    (declares : statement.DeclaresOnly allowed) (weaken : ∀ name, allowed name → weaker name) :
    statement.DeclaresOnly weaker := by
  fun_induction DeclaresOnly allowed statement with
  | case1 | case2 => exact weaken _ declares
  | case3 _ _ ih | case5 _ _ ih | case6 _ _ _ _ ih => exact ih declares
  | case4 _ _ _ consequenceIh alternativeIh =>
      exact ⟨consequenceIh declares.1, alternativeIh declares.2⟩
  | _ => trivial

end Stmt

namespace Grammar

/-- Statements that some tokens derive somewhere. -/
def Derivable (tolerated : Tolerance) (statement : Stmt) : Prop :=
  ∃ form surroundings tokens, DerivesStmt tolerated form surroundings tokens statement

variable {tolerated : Tolerance} {surroundings : Surroundings} {tokens : List Token}
  {statement : Stmt}

theorem derivable_of_mem {parts : List Part} {form : Form}
    (parts_derive : ∀ part ∈ parts, ∀ statement ∈ part.2,
      DerivesStmt tolerated form surroundings part.1 statement)
    (statement_mem : statement ∈ parts.filterMap Prod.snd) : Derivable tolerated statement := by
  rcases List.mem_filterMap.mp statement_mem with ⟨part, part_mem, part_eq⟩
  exact ⟨form, surroundings, part.1, parts_derive part part_mem statement part_eq⟩

theorem DerivesStmt.derivable_of_mem_parts {form : Form}
    (derives : DerivesStmt tolerated form surroundings tokens statement) {part : Stmt}
    (part_mem : part ∈ statement.parts) : Derivable tolerated part := by
  induction derives with
  | undeclared _ ih => exact ih part_mem
  | declareFunction _ _ body_derives | block body_derives =>
      exact derivable_of_mem body_derives part_mem
  | ifThen _ part_derives | whileLoop _ part_derives | forLoop _ _ _ part_derives =>
      obtain rfl := List.mem_singleton.mp part_mem
      exact ⟨_, _, _, part_derives⟩
  | ifElse _ consequence_derives _ alternative_derives =>
      simp only [Stmt.parts, List.mem_cons, List.not_mem_nil, or_false] at part_mem
      rcases part_mem with rfl | rfl
      · exact ⟨_, _, _, consequence_derives⟩
      · exact ⟨_, _, _, alternative_derives⟩
  | declareVariable | expression | print | sleep | breakLoop | continueLoop | returnValue =>
      cases part_mem

/-- Only declarations declare something in the frame that they run in. -/
theorem DerivesStmt.declaresOnly {form : Form}
    (derives : DerivesStmt tolerated form surroundings tokens statement)
    {allowed : String → Prop}
    (declared_allowed : ∀ name, form = .declaration → statement.declared = some name →
      allowed name) : statement.DeclaresOnly allowed := by
  induction derives with
  | declareVariable | declareFunction => exact declared_allowed _ rfl rfl
  | undeclared derives ih => exact ih (by rintro _ ⟨⟩)
  | ifThen _ _ ih | whileLoop _ _ ih | forLoop _ _ _ _ ih => exact ih (by rintro _ ⟨⟩)
  | ifElse _ _ _ _ consequenceIh alternativeIh =>
      exact ⟨consequenceIh (by rintro _ ⟨⟩), alternativeIh (by rintro _ ⟨⟩)⟩
  | expression | print | sleep | breakLoop | continueLoop | returnValue | block => trivial

end Grammar

namespace Stmt

variable {statement : Stmt}

theorem Produced.derivable (produced : statement.Produced) :
    Derivable (fun _ => True) statement := by
  induction produced with
  | @program tokens statement statement_mem =>
      have derives : DerivesProgram (fun _ => True) tokens (Parser.parseProgram tokens).1 :=
        Parser.derivesProgram_parseProgram fun _ _ => trivial
      obtain ⟨parts, parts_derive, -, -, parts_eq⟩ := derives
      rw [← parts_eq] at statement_mem
      exact derivable_of_mem parts_derive statement_mem
  | part _ part_mem ih =>
      obtain ⟨_, _, _, derives⟩ := ih
      exact derives.derivable_of_mem_parts part_mem

theorem Produced.declaresOnly (produced : statement.Produced) :
    statement.DeclaresOnly fun name => statement.declared = some name := by
  obtain ⟨_, _, _, derives⟩ := produced.derivable
  exact derives.declaresOnly fun _ _ declared_eq => declared_eq

end Stmt

end Scriptlet
