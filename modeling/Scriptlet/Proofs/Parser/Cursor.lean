import Scriptlet.Parser.Basic

/-!
# Reading by position

The tokens that a parser reads are those of a list that is closed by an end of input, and a position
in this list says which of them are left. `Proceeds` says step by step how a parser gets from one
position to another: every token that is looked at is in the list, and every counter that is counted
down is above the value at which counting began. Nothing in it bounds repetition or nesting, so
a derivation also says that reading ends.
-/

namespace Scriptlet

/-- The token, unless it stands for the end of input. -/
def Token.unlessEnd (token : Token) : Option Token :=
  if token.kind = .endOfInput then none else some token

namespace Tokens

/-- A list that ends with an end of input has tokens up to the first one. -/
theorem exists_ofList? {tokens : List Token} {last : Token} (last_eq : tokens.getLast? = some last)
    (ends : last.kind = .endOfInput) : ∃ whole, ofList? tokens = some whole := by
  induction tokens with
  | nil => cases last_eq
  | cons token following ih =>
      rw [ofList?]
      split
      · exact ⟨_, rfl⟩
      · next more =>
          cases following with
          | nil =>
              cases last_eq
              exact absurd ends more
          | cons second others =>
              rcases ih last_eq with ⟨whole, whole_eq⟩
              exact ⟨_, by rw [whole_eq]; rfl⟩

/-- What `ofList?` finds is the tokens up to the first end of input. -/
theorem ofList?_eq_some {tokens : List Token} {whole : Tokens} (found : ofList? tokens = some whole) :
    (∃ later, tokens = whole.body ++ whole.last :: later) ∧ whole.last.kind = .endOfInput ∧
      ∀ token ∈ whole.body, token.kind ≠ .endOfInput := by
  induction tokens generalizing whole with
  | nil => cases found
  | cons token following ih =>
      rw [ofList?] at found
      split at found
      · next ends =>
          cases found
          exact ⟨⟨following, rfl⟩, ends, by simp⟩
      · next more =>
          rcases Option.map_eq_some_iff.mp found with ⟨inner, inner_eq, rfl⟩
          rcases ih inner_eq with ⟨⟨later, rfl⟩, ends, none_ends⟩
          exact ⟨⟨later, rfl⟩, ends, List.forall_mem_cons.mpr ⟨more, none_ends⟩⟩

/-- The position of the first end of input. -/
def firstEnd (tokens : List Token) : Nat :=
  tokens.findIdx (·.kind = .endOfInput)

theorem length_body_eq {tokens : List Token} {whole : Tokens} (found : ofList? tokens = some whole) :
    whole.body.length = firstEnd tokens := by
  rcases ofList?_eq_some found with ⟨⟨later, rfl⟩, ends, none_ends⟩
  have behind : (whole.body.findIdx fun token => decide (token.kind = .endOfInput)) =
      whole.body.length := by
    rw [List.findIdx_eq_length]
    exact fun token token_mem => decide_eq_false (none_ends token token_mem)
  simp [firstEnd, List.findIdx_append, behind, List.findIdx_cons, ends]

end Tokens

namespace Parser

variable {α : Type} {tokens : List Token} {whole : Tokens}

/-- A position in a list of tokens, the counters, and what was reported. -/
@[ext]
structure Cursor where
  position : Nat
  loopDepth : Nat
  functionDepth : Nat
  errors : List SyntaxError

/-- How a parser ends at a position: with a value, or with an error. -/
abbrev Outcome (α : Type) := EStateM.Result SyntaxError Cursor α

namespace Cursor

/-- The state of a parser at a position. -/
def state (whole : Tokens) (cursor : Cursor) : State :=
  ⟨whole.body.drop cursor.position, cursor.loopDepth, cursor.functionDepth, cursor.errors⟩

/-- The cursor before the first token, outside of loops and functions. -/
def start : Cursor := ⟨0, 0, 0, []⟩

end Cursor

/-- Where a parser ends. -/
def endOf {σ : Type} : EStateM.Result SyntaxError σ α → σ
  | .ok _ after => after
  | .error _ after => after

/-- The end of a parser seen in another way. -/
def mapEnd {σ τ : Type} (view : σ → τ) :
    EStateM.Result SyntaxError σ α → EStateM.Result SyntaxError τ α
  | .ok value after => .ok value (view after)
  | .error error after => .error error (view after)

@[simp]
theorem endOf_mapEnd {σ τ : Type} (view : σ → τ) (result : EStateM.Result SyntaxError σ α) :
    endOf (mapEnd view result) = view (endOf result) := by
  cases result <;> rfl

theorem mapEnd_mapEnd {σ τ υ : Type} (later : τ → υ) (view : σ → τ)
    (result : EStateM.Result SyntaxError σ α) :
    mapEnd later (mapEnd view result) = mapEnd (later ∘ view) result := by
  cases result <;> rfl

theorem inLoop_eq_mapEnd (body : Parser α) (state : State) :
    inLoop body state = mapEnd (fun after => { after with loopDepth := after.loopDepth - 1 })
      (body { state with loopDepth := state.loopDepth + 1 }) := by
  simp only [inLoop]
  cases body { state with loopDepth := state.loopDepth + 1 } <;> rfl

theorem inFunction_eq_mapEnd (body : Parser α) (state : State) :
    inFunction body state = mapEnd (fun after =>
        { after with loopDepth := state.loopDepth, functionDepth := after.functionDepth - 1 })
      (body { state with loopDepth := 0, functionDepth := state.functionDepth + 1 }) := by
  simp only [inFunction]
  cases body { state with loopDepth := 0, functionDepth := state.functionDepth + 1 } <;> rfl

/-- From behind the token at an index, tokens are passed over until one that was passed ends
a statement, the next one starts a statement, or there is no other. -/
inductive ResumesBehind (tokens : List Token) : Nat → Nat → Prop where
  | ended {index : Nat} {next : Token} (here : tokens[index + 1]? = some next)
      (ends : next.kind = .endOfInput) : ResumesBehind tokens index (index + 1)
  | terminated {index : Nat} {next passed : Token} (here : tokens[index + 1]? = some next)
      (more : next.kind ≠ .endOfInput) (behind : tokens[index]? = some passed)
      (terminates : passed.kind = .semicolon) : ResumesBehind tokens index (index + 1)
  | opens {index : Nat} {next passed : Token} (here : tokens[index + 1]? = some next)
      (more : next.kind ≠ .endOfInput) (behind : tokens[index]? = some passed)
      (goes_on : passed.kind ≠ .semicolon) (opens : opensStatement next.kind = true) :
      ResumesBehind tokens index (index + 1)
  | passes {index final : Nat} {next passed : Token} (here : tokens[index + 1]? = some next)
      (more : next.kind ≠ .endOfInput) (behind : tokens[index]? = some passed)
      (goes_on : passed.kind ≠ .semicolon) (opens_not : opensStatement next.kind = false)
      (later : ResumesBehind tokens (index + 1) final) : ResumesBehind tokens index final

/-- After a fault, the token there is passed over, unless it is the end of input. -/
inductive Resumes (tokens : List Token) : Nat → Nat → Prop where
  | ended {position : Nat} {token : Token} (here : tokens[position]? = some token)
      (ends : token.kind = .endOfInput) : Resumes tokens position position
  | passes {position final : Nat} {token : Token} (here : tokens[position]? = some token)
      (more : token.kind ≠ .endOfInput) (later : ResumesBehind tokens position final) :
      Resumes tokens position final

section

variable (found : Tokens.ofList? tokens = some whole)
include found

/-- In front of the first end of input, there is the next of the tokens left. -/
theorem exists_next {position : Nat} (more : position < whole.body.length) :
    ∃ token, tokens[position]? = some token ∧ token.kind ≠ .endOfInput ∧
      whole.body.drop position = token :: whole.body.drop (position + 1) := by
  rcases Tokens.ofList?_eq_some found with ⟨⟨later, tokens_eq⟩, -, none_ends⟩
  refine ⟨whole.body[position], ?_, none_ends _ (List.getElem_mem more),
    List.drop_eq_getElem_cons more⟩
  rw [tokens_eq, List.getElem?_append_left more, List.getElem?_eq_getElem more]

/-- Behind all tokens, there is the first end of input. -/
theorem exists_last :
    ∃ token, tokens[whole.body.length]? = some token ∧ token.kind = .endOfInput := by
  rcases Tokens.ofList?_eq_some found with ⟨⟨later, tokens_eq⟩, ends, -⟩
  refine ⟨whole.last, ?_, ends⟩
  rw [tokens_eq, List.getElem?_append_right (Nat.le_refl _), Nat.sub_self]
  rfl

/-- At every position up to the first end of input there is a token. It is the next one of the
tokens left, or the end of input if none is left. -/
theorem exists_token {position : Nat} (inside : position ≤ whole.body.length) :
    ∃ token, tokens[position]? = some token ∧
      (whole.body.drop position).head? = token.unlessEnd := by
  rcases Nat.lt_or_eq_of_le inside with more | rfl
  · rcases exists_next found more with ⟨token, here, no_end, rest_eq⟩
    exact ⟨token, here, by rw [rest_eq, Token.unlessEnd, if_neg no_end, List.head?_cons]⟩
  · rcases exists_last found with ⟨token, here, ends⟩
    exact ⟨token, here, by rw [List.drop_length, Token.unlessEnd, if_pos ends, List.head?_nil]⟩

/-- From behind any token that is no end of input, reading resumes where `resume` goes on. -/
theorem exists_resumesBehind {index : Nat} (before_end : index < whole.body.length) :
    ∃ final, ResumesBehind tokens index final ∧
      resume (whole.body.drop index) = whole.body.drop final ∧ index < final ∧
      final ≤ whole.body.length := by
  induction left : whole.body.length - index using Nat.strongRecOn generalizing index with
  | _ left ih =>
      rcases exists_next found before_end with ⟨passed, behind, -, rest_eq⟩
      rw [rest_eq, resume]
      rcases Nat.lt_or_eq_of_le (show index + 1 ≤ _ from before_end) with more | at_end
      · rcases exists_next found more with ⟨next, here, no_end, next_eq⟩
        rw [next_eq]
        split
        · next terminates =>
            exact ⟨index + 1, .terminated here no_end behind terminates, next_eq.symm,
              Nat.lt_succ_self index, before_end⟩
        · next goes_on =>
            split
            · next opens =>
                exact ⟨index + 1, .opens here no_end behind goes_on opens, next_eq.symm,
                  Nat.lt_succ_self index, before_end⟩
            · next opens_not =>
                rcases ih (whole.body.length - (index + 1)) (by omega) more rfl with
                  ⟨final, resumes, resume_eq, forward, inside⟩
                exact ⟨final,
                  .passes here no_end behind goes_on (Bool.eq_false_iff.mpr opens_not) resumes,
                  next_eq ▸ resume_eq, Nat.lt_of_succ_lt forward, inside⟩
      · rcases exists_last found with ⟨last, here, ends⟩
        rw [← at_end] at here
        refine ⟨index + 1, .ended here ends, ?_, Nat.lt_succ_self index, before_end⟩
        rw [at_end, List.drop_length]
        split <;> rfl

theorem exists_resumes {position : Nat} (inside : position ≤ whole.body.length) :
    ∃ final, Resumes tokens position final ∧
      resume (whole.body.drop position) = whole.body.drop final ∧ position ≤ final ∧
      final ≤ whole.body.length := by
  rcases Nat.lt_or_eq_of_le inside with more | rfl
  · rcases exists_next found more with ⟨token, here, no_end, -⟩
    rcases exists_resumesBehind found more with ⟨final, resumes, resume_eq, forward, inside⟩
    exact ⟨final, .passes here no_end resumes, resume_eq, Nat.le_of_lt forward, inside⟩
  · rcases exists_last found with ⟨last, here, ends⟩
    refine ⟨_, .ended here ends, ?_, Nat.le_refl _, inside⟩
    rw [List.drop_length, resume]

end

/-- How a parser proceeds in a list of tokens. A position is only moved past a token that is no end
of input. The counters are never counted down to less than their floors: these are what the counters
are where a declaration begins, and in the body of a function loops are counted from zero.
Repetitions and nested trees have no rules of their own, for they are equal to what they unfold
to. -/
inductive Proceeds (tokens : List Token) :
    {α : Type} → (loopFloor functionFloor : Nat) → Parser α → Cursor → Outcome α → Prop where
  | pure {α : Type} {loopFloor functionFloor : Nat} (value : α) (cursor : Cursor) :
      Proceeds tokens loopFloor functionFloor (pure value) cursor (.ok value cursor)
  | bind {α β : Type} {loopFloor functionFloor : Nat} {parser : Parser α} {next : α → Parser β}
      {cursor middle : Cursor} {value : α} {outcome : Outcome β}
      (first : Proceeds tokens loopFloor functionFloor parser cursor (.ok value middle))
      (second : Proceeds tokens loopFloor functionFloor (next value) middle outcome) :
      Proceeds tokens loopFloor functionFloor (parser >>= next) cursor outcome
  | bindError {α β : Type} {loopFloor functionFloor : Nat} {parser : Parser α}
      {next : α → Parser β} {cursor after : Cursor} {error : SyntaxError}
      (first : Proceeds tokens loopFloor functionFloor parser cursor (.error error after)) :
      Proceeds tokens loopFloor functionFloor (parser >>= next) cursor (.error error after)
  | counters {α : Type} {loopFloor functionFloor : Nat} {next : Nat → Nat → Parser α}
      {cursor : Cursor} {outcome : Outcome α}
      (goes_on : Proceeds tokens loopFloor functionFloor
        (next cursor.loopDepth cursor.functionDepth) cursor outcome) :
      Proceeds tokens loopFloor functionFloor
        (get >>= fun state => next state.loopDepth state.functionDepth) cursor outcome
  | report {loopFloor functionFloor : Nat} (error : SyntaxError) (cursor : Cursor) :
      Proceeds tokens loopFloor functionFloor (report error) cursor
        (.ok () { cursor with errors := cursor.errors ++ [error] })
  | reportHere {loopFloor functionFloor : Nat} {cause : SyntaxError.Cause} {cursor : Cursor}
      {token : Token} (here : tokens[cursor.position]? = some token) :
      Proceeds tokens loopFloor functionFloor (reportHere cause) cursor
        (.ok () { cursor with errors := cursor.errors ++ [⟨cause, token.unlessEnd⟩] })
  | fail {α : Type} {loopFloor functionFloor : Nat} {cause : SyntaxError.Cause} {cursor : Cursor}
      {token : Token} (here : tokens[cursor.position]? = some token) :
      Proceeds tokens loopFloor functionFloor (fail cause : Parser α) cursor
        (.error ⟨cause, token.unlessEnd⟩ cursor)
  | atEnd {loopFloor functionFloor : Nat} {cursor : Cursor} {token : Token}
      (here : tokens[cursor.position]? = some token) :
      Proceeds tokens loopFloor functionFloor atEnd cursor (.ok token.unlessEnd.isNone cursor)
  | check {loopFloor functionFloor : Nat} {kind : Token.Kind} {cursor : Cursor} {token : Token}
      (here : tokens[cursor.position]? = some token) :
      Proceeds tokens loopFloor functionFloor (check kind) cursor
        (.ok (token.unlessEnd.any (·.kind = kind)) cursor)
  | taken {α : Type} {loopFloor functionFloor : Nat} {classify : Token → Option α}
      {cursor : Cursor} {token : Token} {value : α}
      (here : tokens[cursor.position]? = some token)
      (fits : token.unlessEnd.bind classify = some value) :
      Proceeds tokens loopFloor functionFloor (accept classify) cursor
        (.ok (some value) { cursor with position := cursor.position + 1 })
  | left {α : Type} {loopFloor functionFloor : Nat} {classify : Token → Option α}
      {cursor : Cursor} {token : Token} (here : tokens[cursor.position]? = some token)
      (misfits : token.unlessEnd.bind classify = none) :
      Proceeds tokens loopFloor functionFloor (accept classify) cursor (.ok none cursor)
  | inLoop {α : Type} {loopFloor functionFloor : Nat} {body : Parser α} {cursor : Cursor}
      {outcome : Outcome α}
      (inside : Proceeds tokens loopFloor functionFloor body
        { cursor with loopDepth := cursor.loopDepth + 1 } outcome)
      (above : loopFloor < (endOf outcome).loopDepth) :
      Proceeds tokens loopFloor functionFloor (inLoop body) cursor
        (mapEnd (fun after => { after with loopDepth := after.loopDepth - 1 }) outcome)
  | inFunction {α : Type} {loopFloor functionFloor : Nat} {body : Parser α} {cursor : Cursor}
      {outcome : Outcome α}
      (inside : Proceeds tokens 0 functionFloor body
        { cursor with loopDepth := 0, functionDepth := cursor.functionDepth + 1 } outcome)
      (above : functionFloor < (endOf outcome).functionDepth) :
      Proceeds tokens loopFloor functionFloor (inFunction body) cursor
        (mapEnd (fun after =>
          { after with
            loopDepth := cursor.loopDepth
            functionDepth := after.functionDepth - 1 }) outcome)
  | kept {α : Type} {loopFloor functionFloor : Nat} {parser : Parser α} {cursor after : Cursor}
      {value : α}
      (inside : Proceeds tokens cursor.loopDepth cursor.functionDepth parser cursor
        (.ok value after)) :
      Proceeds tokens loopFloor functionFloor (recovering parser) cursor (.ok (some value) after)
  | recovered {α : Type} {loopFloor functionFloor : Nat} {parser : Parser α}
      {cursor after : Cursor} {error : SyntaxError} {final : Nat}
      (inside : Proceeds tokens cursor.loopDepth cursor.functionDepth parser cursor
        (.error error after))
      (resumes : Resumes tokens after.position final) :
      Proceeds tokens loopFloor functionFloor (recovering parser) cursor
        (.ok none { after with position := final, errors := after.errors ++ [error] })

end Parser

end Scriptlet
