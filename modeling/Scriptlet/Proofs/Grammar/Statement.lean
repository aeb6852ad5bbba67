import Scriptlet.Parser.Statement
import Scriptlet.Proofs.Grammar.Expression

/-!
# The grammar of statements

`DerivesStmt` says which token sequences are statements and declarations, in which surroundings,
and which trees they stand for. `DerivesProgram` does so for whole programs.

An `else` belongs to the nearest `if`: what stands between an `if` and its `else` does not end in
an `if` that could still take an `else`. The sequences of declarations in blocks, functions and
programs are given by their parts. Where faults that end a declaration are tolerated, a part may
be any tokens, which stand for nothing.
-/

namespace Scriptlet

/-- Whether an `else` after the statement would belong to an `if` at its end. -/
def Stmt.endsOpen : Stmt → Bool
  | .ifThen _ _ => true
  | .ifElse _ _ alternative => alternative.endsOpen
  | .whileLoop _ body => body.endsOpen
  | .forLoop _ _ _ body => body.endsOpen
  | _ => false

/-- Whether a fault ends the declaration that it is in. Other faults are only reported. -/
def SyntaxError.Cause.isFatal : SyntaxError.Cause → Bool
  | .missingExpression | .missingName _ | .missingSymbol _ _ => true
  | _ => false

namespace Grammar

/-- What a statement stands in: a loop of the same function, a function. -/
structure Surroundings where
  inLoop : Bool
  inFunction : Bool

/-- Where declarations are allowed, and where they are not. -/
inductive Form where
  | declaration
  | statement

/-- What follows the word that declares a variable. -/
inductive DerivesVariable (tolerated : Tolerance) : List Token → VariableDeclaration → Prop where
  | bare {name : Name} {semicolon : Token.OfKind .semicolon} :
      DerivesVariable tolerated [name.token, semicolon.token] ⟨name, none⟩
  | initialized {name : Name} {equals : Token.OfKind .equal}
      {semicolon : Token.OfKind .semicolon} {tokens : List Token} {value : Expr}
      (value_derives : DerivesExpr tolerated .assignment tokens value) :
      DerivesVariable tolerated (name.token :: equals.token :: (tokens ++ [semicolon.token]))
        ⟨name, some value⟩

/-- An expression that may be left out. -/
inductive DerivesOptional (tolerated : Tolerance) : List Token → Option Expr → Prop where
  | absent : DerivesOptional tolerated [] none
  | present {tokens : List Token} {tree : Expr}
      (derives : DerivesExpr tolerated .assignment tokens tree) :
      DerivesOptional tolerated tokens (some tree)

/-- The first clause of a counting loop, with the semicolon after it. -/
inductive DerivesInitializer (tolerated : Tolerance) : List Token → ForInitializer → Prop where
  | absent {semicolon : Token.OfKind .semicolon} :
      DerivesInitializer tolerated [semicolon.token] .absent
  | declaration {keyword : Token.OfKind .varWord} {tokens : List Token}
      {declaration : VariableDeclaration}
      (derives : DerivesVariable tolerated tokens declaration) :
      DerivesInitializer tolerated (keyword.token :: tokens) (.declaration declaration)
  | expression {semicolon : Token.OfKind .semicolon} {tokens : List Token} {tree : Expr}
      (derives : DerivesExpr tolerated .assignment tokens tree) :
      DerivesInitializer tolerated (tokens ++ [semicolon.token]) (.expression tree)

/-- A part of a sequence of declarations: tokens, and the statement that they stand for if they
are no skipped fault. -/
abbrev Part := List Token × Option Stmt

/-- Faults that end a declaration are tolerated. -/
def Skips (tolerated : Tolerance) : Prop :=
  ∃ cause, cause.isFatal = true ∧ tolerated cause

/-- Token sequences with the statements that they stand for. -/
inductive DerivesStmt (tolerated : Tolerance) :
    Form → Surroundings → List Token → Stmt → Prop where
  | declareVariable {surroundings : Surroundings} {keyword : Token.OfKind .varWord}
      {tokens : List Token} {declaration : VariableDeclaration}
      (derives : DerivesVariable tolerated tokens declaration) :
      DerivesStmt tolerated .declaration surroundings (keyword.token :: tokens)
        (.declareVariable declaration)
  | declareFunction {surroundings : Surroundings} {keyword : Token.OfKind .funWord}
      {leftParen : Token.OfKind .leftParen} {rightParen : Token.OfKind .rightParen}
      {leftBrace : Token.OfKind .leftBrace} {rightBrace : Token.OfKind .rightBrace}
      {name : Name} {parameters : List Name} {inner : List Token} {parts : List Part}
      (separated : Separated (parameters.map fun parameter => [parameter.token]) inner)
      (few : parameters.length ≤ Parser.maxArity ∨ tolerated .tooManyParameters)
      (parts_derive : ∀ part ∈ parts, ∀ statement ∈ part.2,
        DerivesStmt tolerated .declaration ⟨false, true⟩ part.1 statement)
      (skips : ∀ part ∈ parts, part.2 = none → Skips tolerated) :
      DerivesStmt tolerated .declaration surroundings
        (keyword.token :: name.token :: leftParen.token ::
          (inner ++ rightParen.token :: leftBrace.token ::
            (parts.flatMap Prod.fst ++ [rightBrace.token])))
        (.declareFunction name parameters (parts.filterMap Prod.snd))
  | undeclared {surroundings : Surroundings} {tokens : List Token} {tree : Stmt}
      (derives : DerivesStmt tolerated .statement surroundings tokens tree) :
      DerivesStmt tolerated .declaration surroundings tokens tree
  | expression {surroundings : Surroundings} {semicolon : Token.OfKind .semicolon}
      {tokens : List Token} {tree : Expr}
      (derives : DerivesExpr tolerated .assignment tokens tree) :
      DerivesStmt tolerated .statement surroundings (tokens ++ [semicolon.token])
        (.expression tree)
  | print {surroundings : Surroundings} {keyword : Token.OfKind .printWord}
      {semicolon : Token.OfKind .semicolon} {tokens : List Token} {tree : Expr}
      (derives : DerivesExpr tolerated .assignment tokens tree) :
      DerivesStmt tolerated .statement surroundings
        (keyword.token :: (tokens ++ [semicolon.token])) (.print keyword tree)
  | sleep {surroundings : Surroundings} {keyword : Token.OfKind .sleepWord}
      {semicolon : Token.OfKind .semicolon} {tokens : List Token} {tree : Expr}
      (derives : DerivesExpr tolerated .assignment tokens tree) :
      DerivesStmt tolerated .statement surroundings
        (keyword.token :: (tokens ++ [semicolon.token])) (.sleep keyword tree)
  | ifThen {surroundings : Surroundings} {keyword : Token.OfKind .ifWord}
      {leftParen : Token.OfKind .leftParen} {rightParen : Token.OfKind .rightParen}
      {tokens consequenceTokens : List Token} {condition : Expr} {consequence : Stmt}
      (condition_derives : DerivesExpr tolerated .assignment tokens condition)
      (consequence_derives :
        DerivesStmt tolerated .statement surroundings consequenceTokens consequence) :
      DerivesStmt tolerated .statement surroundings
        (keyword.token :: leftParen.token ::
          (tokens ++ rightParen.token :: consequenceTokens))
        (.ifThen condition consequence)
  | ifElse {surroundings : Surroundings} {keyword : Token.OfKind .ifWord}
      {leftParen : Token.OfKind .leftParen} {rightParen : Token.OfKind .rightParen}
      {elseWord : Token.OfKind .elseWord}
      {tokens consequenceTokens alternativeTokens : List Token} {condition : Expr}
      {consequence alternative : Stmt}
      (condition_derives : DerivesExpr tolerated .assignment tokens condition)
      (consequence_derives :
        DerivesStmt tolerated .statement surroundings consequenceTokens consequence)
      (closed : consequence.endsOpen = false)
      (alternative_derives :
        DerivesStmt tolerated .statement surroundings alternativeTokens alternative) :
      DerivesStmt tolerated .statement surroundings
        (keyword.token :: leftParen.token ::
          (tokens ++ rightParen.token ::
            (consequenceTokens ++ elseWord.token :: alternativeTokens)))
        (.ifElse condition consequence alternative)
  | whileLoop {surroundings : Surroundings} {keyword : Token.OfKind .whileWord}
      {leftParen : Token.OfKind .leftParen} {rightParen : Token.OfKind .rightParen}
      {tokens bodyTokens : List Token} {condition : Expr} {body : Stmt}
      (condition_derives : DerivesExpr tolerated .assignment tokens condition)
      (body_derives :
        DerivesStmt tolerated .statement ⟨true, surroundings.inFunction⟩ bodyTokens body) :
      DerivesStmt tolerated .statement surroundings
        (keyword.token :: leftParen.token :: (tokens ++ rightParen.token :: bodyTokens))
        (.whileLoop condition body)
  | forLoop {surroundings : Surroundings} {keyword : Token.OfKind .forWord}
      {leftParen : Token.OfKind .leftParen} {rightParen : Token.OfKind .rightParen}
      {semicolon : Token.OfKind .semicolon}
      {initializerTokens conditionTokens incrementTokens bodyTokens : List Token}
      {initializer : ForInitializer} {condition increment : Option Expr} {body : Stmt}
      (initializer_derives : DerivesInitializer tolerated initializerTokens initializer)
      (condition_derives : DerivesOptional tolerated conditionTokens condition)
      (increment_derives : DerivesOptional tolerated incrementTokens increment)
      (body_derives :
        DerivesStmt tolerated .statement ⟨true, surroundings.inFunction⟩ bodyTokens body) :
      DerivesStmt tolerated .statement surroundings
        (keyword.token :: leftParen.token ::
          (initializerTokens ++ (conditionTokens ++ semicolon.token ::
            (incrementTokens ++ rightParen.token :: bodyTokens))))
        (.forLoop initializer condition increment body)
  | breakLoop {surroundings : Surroundings} {keyword : Token.OfKind .breakWord}
      {semicolon : Token.OfKind .semicolon}
      (placed : surroundings.inLoop = true ∨ tolerated (.jumpOutsideLoop keyword.lexeme)) :
      DerivesStmt tolerated .statement surroundings [keyword.token, semicolon.token] .breakLoop
  | continueLoop {surroundings : Surroundings} {keyword : Token.OfKind .continueWord}
      {semicolon : Token.OfKind .semicolon}
      (placed : surroundings.inLoop = true ∨ tolerated (.jumpOutsideLoop keyword.lexeme)) :
      DerivesStmt tolerated .statement surroundings [keyword.token, semicolon.token]
        .continueLoop
  | returnValue {surroundings : Surroundings} {keyword : Token.OfKind .returnWord}
      {semicolon : Token.OfKind .semicolon} {tokens : List Token} {value : Option Expr}
      (placed : surroundings.inFunction = true ∨ tolerated .returnOutsideFunction)
      (value_derives : DerivesOptional tolerated tokens value) :
      DerivesStmt tolerated .statement surroundings
        (keyword.token :: (tokens ++ [semicolon.token])) (.returnValue value)
  | block {surroundings : Surroundings} {leftBrace : Token.OfKind .leftBrace}
      {rightBrace : Token.OfKind .rightBrace} {parts : List Part}
      (parts_derive : ∀ part ∈ parts, ∀ statement ∈ part.2,
        DerivesStmt tolerated .declaration surroundings part.1 statement)
      (skips : ∀ part ∈ parts, part.2 = none → Skips tolerated) :
      DerivesStmt tolerated .statement surroundings
        (leftBrace.token :: (parts.flatMap Prod.fst ++ [rightBrace.token]))
        (.block (parts.filterMap Prod.snd))

/-- Token sequences with the programs that they stand for. -/
def DerivesProgram (tolerated : Tolerance) (tokens : List Token) (program : List Stmt) : Prop :=
  ∃ parts : List Part,
    (∀ part ∈ parts, ∀ statement ∈ part.2,
      DerivesStmt tolerated .declaration ⟨false, false⟩ part.1 statement) ∧
    (∀ part ∈ parts, part.2 = none → Skips tolerated) ∧
    parts.flatMap Prod.fst = tokens ∧ parts.filterMap Prod.snd = program

/-- The kinds of tokens that a statement can start with. -/
def statementStartKinds : List Token.Kind :=
  startKinds ++ [.printWord, .sleepWord, .ifWord, .whileWord, .forWord, .breakWord,
    .continueWord, .returnWord, .leftBrace]

/-- The kinds of tokens that a statement or a declaration can start with. -/
def Form.startKinds : Form → List Token.Kind
  | .statement => statementStartKinds
  | .declaration => statementStartKinds ++ [.varWord, .funWord]

namespace DerivesStmt

variable {tolerated : Tolerance} {form : Form} {surroundings : Surroundings}
  {tokens : List Token} {tree : Stmt}

theorem exists_start (derives : DerivesStmt tolerated form surroundings tokens tree) :
    ∃ token others, tokens = token :: others ∧ token.kind ∈ form.startKinds := by
  induction derives with
  | undeclared _ ih =>
      rcases ih with ⟨token, others, rfl, starts⟩
      exact ⟨token, others, rfl, List.mem_append_left _ starts⟩
  | expression derives =>
      rcases derives.exists_start rfl with ⟨token, others, rfl, starts⟩
      exact ⟨token, _, rfl, List.mem_append_left _ starts⟩
  | @declareVariable _ keyword | @declareFunction _ keyword | @print _ keyword
  | @sleep _ keyword | @ifThen _ keyword | @ifElse _ keyword | @whileLoop _ keyword
  | @forLoop _ keyword | @breakLoop _ keyword | @continueLoop _ keyword
  | @returnValue _ keyword | @block _ keyword =>
      exact ⟨keyword.token, _, rfl, by rw [keyword.kind_eq]; decide⟩

theorem tokens_ne_nil (derives : DerivesStmt tolerated form surroundings tokens tree) :
    tokens ≠ [] := by
  rcases derives.exists_start with ⟨token, others, rfl, _⟩
  simp

/-- A declaration that starts as a statement is a statement. -/
theorem statement_of_declaration
    (derives : DerivesStmt tolerated .declaration surroundings tokens tree)
    (undeclared : ∀ token ∈ tokens.head?, token.kind ≠ .varWord ∧ token.kind ≠ .funWord) :
    DerivesStmt tolerated .statement surroundings tokens tree := by
  cases derives with
  | declareVariable => exact absurd (Token.OfKind.kind_eq _) (undeclared _ rfl).1
  | declareFunction => exact absurd (Token.OfKind.kind_eq _) (undeclared _ rfl).2
  | undeclared derives => exact derives

end DerivesStmt

end Grammar

end Scriptlet
