import Scriptlet.Proofs.Parser.PredictionRules

/-!
# Readers of languages

Whether tokens can go on to a program does not depend on the trees that are made of them. A reader
recognizes a language if it takes only tokens of the language and its first fault comes where such
tokens are unfinished. Readers in a row recognize one language after the other.
-/

namespace Scriptlet.Parser

open Grammar

variable {α β : Type} {tolerated : Tolerance} {room : Nat} {lookahead other : Lookahead}

/-- The token sequences of a kind, in surroundings. -/
abbrev Language := Surroundings → List Token → Prop

/-- Tokens of one language and then tokens of another one. -/
def Language.Then (first second : Language) : Language := fun surroundings tokens =>
  ∃ left right, tokens = left ++ right ∧ first surroundings left ∧ second surroundings right

/-- One token of a kind. -/
def Language.single (kind : Token.Kind) : Language := fun _ tokens =>
  ∃ known : Token.OfKind kind, tokens = [known.token]

/-- No token. -/
def Language.nothing : Language := fun _ tokens => tokens = []

/-- Where few tokens are left, a reader takes tokens of a language and looks one token ahead, and
its first fault comes after unfinished tokens of the language. -/
structure Recognizes (room : Nat) (tolerated : Tolerance) (lookahead : Lookahead)
    (parser : Parser α) (language : Language) : Prop where
  reads : Reads tolerated parser fun surroundings tokens _ _ => language surroundings tokens
  foresees : Foresees room tolerated lookahead parser fun surroundings read =>
    Unfinished (language surroundings) read
  inhabited : ∀ surroundings, ∃ tokens, language surroundings tokens

namespace Recognizes

variable {parser : Parser α} {next : α → Parser β} {language first second : Language}

theorem mono (recognizes : Recognizes room tolerated lookahead parser language)
    (weaken : ∀ surroundings tokens, language surroundings tokens → first surroundings tokens) :
    Recognizes room tolerated lookahead parser first where
  reads := recognizes.reads.mono fun surroundings tokens _ _ => weaken surroundings tokens
  foresees := recognizes.foresees.mono fun surroundings _ unfinished =>
    unfinished.mono (weaken surroundings)
  inhabited surroundings :=
    (recognizes.inhabited surroundings).imp fun tokens => weaken surroundings tokens

theorem bind_pure (recognizes : Recognizes room tolerated lookahead parser language)
    (wrap : α → β) :
    Recognizes room tolerated lookahead (parser >>= fun value => pure (wrap value)) language where
  reads := by
    apply (recognizes.reads.bind fun value => reads_pure (wrap value)).mono
    rintro surroundings tokens rest result ⟨_, left, right, rfl, holds, rfl, _⟩
    simpa using holds
  foresees := recognizes.foresees.bind_pure wrap
  inhabited := recognizes.inhabited

theorem map (recognizes : Recognizes room tolerated lookahead parser language) (wrap : α → β) :
    Recognizes room tolerated lookahead (wrap <$> parser) language := by
  rw [map_eq_pure_bind]
  exact recognizes.bind_pure wrap

/-- What is unfinished of two languages in a row is an unfinished part of the first one, or the
first part is whole and the second one is unfinished. -/
theorem unfinished_then (inhabited : ∀ surroundings, ∃ tokens, second surroundings tokens)
    {surroundings : Surroundings} {read : List Token}
    (cases : Unfinished (first surroundings) read ∨
      ∃ (_ : α) (left right _ : List Token), read = left ++ right ∧ first surroundings left ∧
        Unfinished (second surroundings) right) :
    Unfinished (Language.Then first second surroundings) read := by
  rcases cases with holds | ⟨_, left, right, _, rfl, holds, later⟩
  · obtain ⟨others, others_hold⟩ := inhabited surroundings
    exact holds.followed fun tokens whole => ⟨others, tokens, others, rfl, whole, others_hold⟩
  · exact later.within left fun tokens whole => ⟨[], left, tokens, by simp, holds, whole⟩

theorem reads_then (earlier : Recognizes room tolerated other parser first)
    (later : ∀ value, Recognizes room tolerated lookahead (next value) second) :
    Reads tolerated (parser >>= next) fun surroundings tokens _ _ =>
      first.Then second surroundings tokens := by
  apply (earlier.reads.bind fun value => (later value).reads).mono
  rintro surroundings tokens rest result ⟨_, left, right, rfl, holds, whole⟩
  exact ⟨left, right, rfl, holds, whole⟩

section

variable [Nonempty α]

theorem inhabited_of (later : ∀ value, Recognizes room tolerated lookahead (next value) second)
    (surroundings : Surroundings) : ∃ tokens, second surroundings tokens := by
  obtain ⟨value⟩ := ‹Nonempty α›
  exact (later value).inhabited surroundings

theorem inhabited_then (earlier : Recognizes room tolerated other parser first)
    (later : ∀ value, Recognizes room tolerated lookahead (next value) second)
    (surroundings : Surroundings) : ∃ tokens, first.Then second surroundings tokens := by
  obtain ⟨left, holds⟩ := earlier.inhabited surroundings
  obtain ⟨right, whole⟩ := inhabited_of later surroundings
  exact ⟨left ++ right, left, right, rfl, holds, whole⟩

theorem bind (earlier : Recognizes room tolerated lookahead parser first)
    (later : ∀ value, Recognizes room tolerated lookahead (next value) second) :
    Recognizes room tolerated lookahead (parser >>= next) (first.Then second) where
  reads := earlier.reads_then later
  foresees :=
    (earlier.foresees.bind earlier.reads fun value => (later value).foresees).mono
      fun _ _ => unfinished_then (inhabited_of later)
  inhabited := earlier.inhabited_then later

theorem bind_eats (earlier : Recognizes room tolerated other parser first)
    (later : ∀ value, Recognizes room tolerated lookahead (next value) second)
    (eats : ∀ value, Eats (next value)) :
    Recognizes room tolerated lookahead (parser >>= next) (first.Then second) where
  reads := earlier.reads_then later
  foresees :=
    (earlier.foresees.bind_eats earlier.reads (fun value => (later value).foresees) eats).mono
      fun _ _ => unfinished_then (inhabited_of later)
  inhabited := earlier.inhabited_then later

end

end Recognizes

instance (kind : Token.Kind) : Nonempty (Token.OfKind kind) :=
  ⟨sample kind⟩

theorem recognizes_pure (value : α) :
    Recognizes room tolerated lookahead (pure value) .nothing where
  reads := (reads_pure value).mono fun _ _ _ _ holds => holds.1
  foresees := (foresees_pure value).mono fun _ _ impossible => impossible.elim
  inhabited _ := ⟨[], rfl⟩

theorem recognizes_report {error : SyntaxError} (allowed : tolerated error.cause)
    (located : error.token.isSome) :
    Recognizes room tolerated lookahead (report error) .nothing where
  reads := (reads_report error).mono fun _ _ _ _ holds => holds.1
  foresees := (foresees_report allowed located).mono fun _ _ impossible => impossible.elim
  inhabited _ := ⟨[], rfl⟩

theorem recognizes_expect {kind : Token.Kind} {cause : SyntaxError.Cause}
    (fatal : cause.isFatal = true) (named : kind ≠ .elseWord) :
    Recognizes room tolerated lookahead (expect kind cause) (.single kind) where
  reads := (reads_expect fatal).mono fun _ _ _ known tokens_eq => ⟨known, tokens_eq⟩
  foresees := by
    apply (foresees_expect kind cause).mono
    rintro surroundings read rfl
    exact unfinished_before kind named [] ⟨sample kind, rfl⟩
  inhabited _ := ⟨_, sample kind, rfl⟩

theorem recognizes_expectSymbol {kind : Token.Kind} (place : SyntaxError.Place)
    (named : kind ≠ .elseWord) :
    Recognizes room tolerated lookahead (expectSymbol kind place) (.single kind) :=
  recognizes_expect rfl named

section Choice

variable {kind : Token.Kind} {next : Option (Token.OfKind kind) → Parser β}
  {hit miss : Language}

/-- Tokens of one of two languages, where those of the first one come after a token of a kind. -/
def Language.opened (kind : Token.Kind) (hit miss : Language) : Language :=
  fun surroundings tokens =>
    (Language.single kind).Then hit surroundings tokens ∨ miss surroundings tokens

theorem recognizes_acceptKind_bind
    (taken : ∀ known, Recognizes room tolerated lookahead (next (some known)) hit)
    (left : Recognizes room tolerated lookahead (next none) miss)
    (refuses : Refuses lookahead (Token.OfKind.of? kind) (next none)) :
    Recognizes room tolerated lookahead (acceptKind kind >>= next) (.opened kind hit miss) where
  reads := by
    apply (reads_acceptKind_bind (fun known => (taken known).reads) left.reads).mono
    rintro surroundings tokens rest result (⟨known, others, rfl, holds⟩ | ⟨_, holds⟩)
    · exact .inl ⟨[known.token], others, rfl, ⟨known, rfl⟩, holds⟩
    · exact .inr holds
  foresees := by
    cases room with
    | zero =>
        exact .zero (reads_acceptKind_bind (fun known => (taken known).reads) left.reads).leads
    | succ room =>
        have read := Foresees.acceptKind_bind
          (fun known => (taken known).foresees.fewer (Nat.le_succ room)) left.foresees refuses
        apply read.mono
        rintro surroundings read (⟨known, others, rfl, holds⟩ | holds)
        · exact holds.within [known.token] fun tokens whole =>
            ⟨[], .inl ⟨[known.token], tokens, by simp, ⟨known, rfl⟩, whole⟩⟩
        · exact holds.mono fun tokens whole => .inr whole
  inhabited surroundings := (left.inhabited surroundings).imp fun _ => .inr

end Choice

section Lists

variable {item : Parser α} {excess : SyntaxError.Cause} {piece : List Token → Prop}

theorem recognizes_closedList (allowed : tolerated excess)
    (items : Recognizes room tolerated .anything item fun _ => piece)
    (place : SyntaxError.Place) :
    Recognizes room tolerated lookahead (closedList excess place item) fun _ =>
      ClosedPieces piece where
  reads := by
    apply (reads_closedList items.reads place).mono
    rintro surroundings tokens rest result ⟨pieces, inner, rfl, separated, _, hold, _⟩
    refine ⟨inner, result.2, rfl, _, separated, ?_⟩
    intro part part_mem
    obtain ⟨piece, piece_mem, rfl⟩ := List.mem_map.mp part_mem
    obtain ⟨_, holds⟩ := hold piece piece_mem
    exact holds
  foresees := foresees_closedList allowed items.reads items.foresees place
  inhabited _ := ⟨_, [], sample .rightParen, rfl, [], .empty, by simp⟩

end Lists

section Nesting

variable {parser : Parser α} {language : Language}

theorem Recognizes.inLoop (recognizes : Recognizes room tolerated lookahead parser language) :
    Recognizes room tolerated lookahead (inLoop parser) fun surroundings tokens =>
      language ⟨true, surroundings.inFunction⟩ tokens where
  reads := reads_inLoop recognizes.reads
  foresees := recognizes.foresees.inLoop
  inhabited surroundings := recognizes.inhabited ⟨true, surroundings.inFunction⟩

theorem Recognizes.inFunction (recognizes : Recognizes room tolerated lookahead parser language) :
    Recognizes room tolerated lookahead (inFunction parser) fun _ tokens =>
      language ⟨false, true⟩ tokens where
  reads := reads_inFunction recognizes.reads
  foresees := recognizes.foresees.inFunction
  inhabited _ := recognizes.inhabited ⟨false, true⟩

end Nesting

end Scriptlet.Parser
