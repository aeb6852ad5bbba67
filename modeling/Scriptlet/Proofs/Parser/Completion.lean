import Scriptlet.Proofs.Parser.Cursor
import Scriptlet.Proofs.Parser.PredictionRules

/-!
# Parsers that have an outcome everywhere

`Completes` says of a parser that it proceeds to an outcome from every position with few tokens
left. The rules follow the ways in which parsers are put together: what is nested in a tree comes
after a token, and every step of a repetition reads one.
-/

namespace Scriptlet.Parser

variable {α β γ : Type} {tokens : List Token} {whole : Tokens}

/-- Whether a cursor is at a position up to the first end of input with less than some number of
tokens left, and its counters are not below some floors. -/
structure Cursor.Fits (whole : Tokens) (room loopFloor functionFloor : Nat) (cursor : Cursor) :
    Prop where
  few : whole.body.length < cursor.position + room
  inside : cursor.position ≤ whole.body.length
  loop_le : loopFloor ≤ cursor.loopDepth
  function_le : functionFloor ≤ cursor.functionDepth

/-- A parser proceeds from a position to an outcome. It gives the same from the tokens left, it moves
forward, at most to the first end of input, and the counters are restored. -/
structure Arrives (tokens : List Token) (whole : Tokens) (loopFloor functionFloor : Nat)
    (parser : Parser α) (cursor : Cursor) (outcome : Outcome α) : Prop where
  proceeds : Proceeds tokens loopFloor functionFloor parser cursor outcome
  run_eq : parser (cursor.state whole) = mapEnd (Cursor.state whole) outcome
  forward : cursor.position ≤ (endOf outcome).position
  inside : (endOf outcome).position ≤ whole.body.length
  loopDepth_eq : (endOf outcome).loopDepth = cursor.loopDepth
  functionDepth_eq : (endOf outcome).functionDepth = cursor.functionDepth

/-- A parser has an outcome wherever few tokens are left. -/
structure Completes (tokens : List Token) (whole : Tokens) (room : Nat) (parser : Parser α) :
    Prop where
  outcome : ∀ {cursor : Cursor} {loopFloor functionFloor : Nat},
    cursor.Fits whole room loopFloor functionFloor →
    ∃ outcome, Arrives tokens whole loopFloor functionFloor parser cursor outcome

namespace Arrives

variable {loopFloor functionFloor room : Nat} {parser : Parser α} {next : α → Parser β}
  {cursor middle : Cursor}

/-- A parser that stays where it is. -/
theorem of_stays {outcome : Outcome α}
    (fits : cursor.Fits whole room loopFloor functionFloor)
    (proceeds : Proceeds tokens loopFloor functionFloor parser cursor outcome)
    (run_eq : parser (cursor.state whole) = mapEnd (Cursor.state whole) outcome)
    (stays : endOf outcome = { cursor with errors := (endOf outcome).errors }) :
    Arrives tokens whole loopFloor functionFloor parser cursor outcome where
  proceeds := proceeds
  run_eq := run_eq
  forward := Nat.le_of_eq (congrArg Cursor.position stays).symm
  inside := Nat.le_trans (Nat.le_of_eq (congrArg Cursor.position stays)) fits.inside
  loopDepth_eq := by rw [stays]
  functionDepth_eq := by rw [stays]

/-- Where a parser arrives, another can go on. -/
theorem fits_endOf {outcome : Outcome α}
    (arrives : Arrives tokens whole loopFloor functionFloor parser cursor outcome)
    (fits : cursor.Fits whole room loopFloor functionFloor) :
    (endOf outcome).Fits whole room loopFloor functionFloor where
  few := Nat.lt_of_lt_of_le fits.few (Nat.add_le_add_right arrives.forward room)
  inside := arrives.inside
  loop_le := arrives.loopDepth_eq ▸ fits.loop_le
  function_le := arrives.functionDepth_eq ▸ fits.function_le

theorem bind {value : α} {outcome : Outcome β}
    (first : Arrives tokens whole loopFloor functionFloor parser cursor (.ok value middle))
    (second : Arrives tokens whole loopFloor functionFloor (next value) middle outcome) :
    Arrives tokens whole loopFloor functionFloor (parser >>= next) cursor outcome where
  proceeds := .bind first.proceeds second.proceeds
  run_eq := (bind_of_ok first.run_eq).trans second.run_eq
  forward := Nat.le_trans first.forward second.forward
  inside := second.inside
  loopDepth_eq := second.loopDepth_eq.trans first.loopDepth_eq
  functionDepth_eq := second.functionDepth_eq.trans first.functionDepth_eq

theorem bindError {error : SyntaxError}
    (first : Arrives tokens whole loopFloor functionFloor parser cursor (.error error middle)) :
    Arrives tokens whole loopFloor functionFloor (parser >>= next) cursor (.error error middle) where
  proceeds := .bindError first.proceeds
  run_eq := bind_of_error first.run_eq
  forward := first.forward
  inside := first.inside
  loopDepth_eq := first.loopDepth_eq
  functionDepth_eq := first.functionDepth_eq

/-- At every position a token is taken or left. -/
theorem of_accept (found : Tokens.ofList? tokens = some whole) (classify : Token → Option γ)
    (fits : cursor.Fits whole room loopFloor functionFloor) :
    (∃ value, Arrives tokens whole loopFloor functionFloor (accept classify) cursor
      (.ok (some value) { cursor with position := cursor.position + 1 })) ∨
    Arrives tokens whole loopFloor functionFloor (accept classify) cursor (.ok none cursor) := by
  rcases exists_token found fits.inside with ⟨token, here, head_eq⟩
  rcases accept_cases classify (cursor.state whole) with
    ⟨first, rest, value, rest_eq, fits_class, run⟩ | ⟨none_fits, run⟩
  · have rest_eq : whole.body.drop cursor.position = first :: rest := rest_eq
    have more : cursor.position < whole.body.length := by
      have nonempty := congrArg List.length rest_eq
      rw [List.length_drop, List.length_cons] at nonempty
      omega
    have token_eq : token.unlessEnd = some first := by rw [← head_eq, rest_eq, List.head?_cons]
    have later_eq : whole.body.drop (cursor.position + 1) = rest := by
      rw [← List.tail_drop, rest_eq, List.tail_cons]
    refine .inl ⟨value, .taken here (token_eq ▸ fits_class), ?_, Nat.le_succ _, more, rfl, rfl⟩
    rw [run, ← later_eq]
    rfl
  · refine .inr (.of_stays fits (.left here ?_) run rfl)
    rw [← head_eq]
    exact Option.bind_eq_none_iff.mpr none_fits

end Arrives

namespace Completes

variable {room : Nat} {parser : Parser α}

/-- There is no position with less than no token left. -/
theorem zero : Completes tokens whole 0 parser :=
  ⟨fun fits => absurd fits.inside (Nat.not_le_of_gt fits.few)⟩

theorem pure (value : α) : Completes tokens whole room (pure value) :=
  ⟨fun fits => ⟨_, .of_stays fits (.pure value _) rfl rfl⟩⟩

theorem bind {next : α → Parser β} (first : Completes tokens whole room parser)
    (second : ∀ value, Completes tokens whole room (next value)) :
    Completes tokens whole room (parser >>= next) := by
  constructor
  intro cursor loopFloor functionFloor fits
  rcases first.outcome fits with ⟨_ | _, arrives⟩
  · rcases (second _).outcome (arrives.fits_endOf fits) with ⟨outcome, goes_on⟩
    exact ⟨outcome, arrives.bind goes_on⟩
  · exact ⟨_, arrives.bindError⟩

theorem map (completes : Completes tokens whole room parser) (wrap : α → β) :
    Completes tokens whole room (wrap <$> parser) := by
  rw [map_eq_pure_bind]
  exact completes.bind fun value => pure (wrap value)

theorem counters {next : Nat → Nat → Parser α}
    (completes : ∀ loopDepth functionDepth,
      Completes tokens whole room (next loopDepth functionDepth)) :
    Completes tokens whole room
      (get >>= fun state => next state.loopDepth state.functionDepth) := by
  constructor
  intro cursor loopFloor functionFloor fits
  rcases (completes cursor.loopDepth cursor.functionDepth).outcome fits with ⟨outcome, arrives⟩
  exact ⟨outcome, { arrives with proceeds := .counters arrives.proceeds, run_eq := arrives.run_eq }⟩

theorem report (error : SyntaxError) : Completes tokens whole room (report error) :=
  ⟨fun fits => ⟨_, .of_stays fits (.report error _) rfl rfl⟩⟩

section

variable (found : Tokens.ofList? tokens = some whole)
include found

/-- A parser that only looks at the next token. -/
theorem looks (outcome : Option Token → Cursor → Outcome α)
    (stays : ∀ next cursor, endOf (outcome next cursor) =
      { cursor with errors := (endOf (outcome next cursor)).errors })
    (proceeds : ∀ {cursor : Cursor} {token : Token} {loopFloor functionFloor : Nat},
      tokens[cursor.position]? = some token →
        Proceeds tokens loopFloor functionFloor parser cursor (outcome token.unlessEnd cursor))
    (run_eq : ∀ cursor : Cursor, parser (cursor.state whole) =
      mapEnd (Cursor.state whole) (outcome (whole.body.drop cursor.position).head? cursor)) :
    Completes tokens whole room parser := by
  constructor
  intro cursor loopFloor functionFloor fits
  rcases exists_token found fits.inside with ⟨token, here, head_eq⟩
  refine ⟨_, .of_stays fits (proceeds here) ?_ (stays _ cursor)⟩
  rw [run_eq, head_eq]

theorem reportHere (cause : SyntaxError.Cause) :
    Completes tokens whole room (reportHere cause) :=
  looks found
    (fun next cursor => .ok () { cursor with errors := cursor.errors ++ [⟨cause, next⟩] })
    (fun _ _ => rfl) .reportHere fun _ => rfl

theorem fail (cause : SyntaxError.Cause) :
    Completes tokens whole room (fail cause : Parser α) :=
  looks found (fun next cursor => .error ⟨cause, next⟩ cursor) (fun _ _ => rfl) .fail fun _ => rfl

theorem atEnd : Completes tokens whole room atEnd := by
  apply looks found (fun next cursor => .ok next.isNone cursor) (fun _ _ => rfl) .atEnd
  intro cursor
  change EStateM.Result.ok (whole.body.drop cursor.position).isEmpty _ = _
  cases whole.body.drop cursor.position <;> rfl

theorem check (kind : Token.Kind) : Completes tokens whole room (check kind) :=
  looks found (fun next cursor => .ok (next.any (·.kind = kind)) cursor) (fun _ _ => rfl) .check
    fun _ => rfl

theorem accept (classify : Token → Option α) : Completes tokens whole room (accept classify) := by
  constructor
  intro cursor loopFloor functionFloor fits
  rcases Arrives.of_accept found classify fits with ⟨value, arrives⟩ | arrives
  · exact ⟨_, arrives⟩
  · exact ⟨_, arrives⟩

/-- A parser that comes after a token has fewer tokens left. -/
theorem accept_bind {classify : Token → Option γ} {next : Option γ → Parser α}
    (taken : ∀ value, Completes tokens whole room (next (some value)))
    (left : Completes tokens whole (room + 1) (next none)) :
    Completes tokens whole (room + 1) (Parser.accept classify >>= next) := by
  constructor
  intro cursor loopFloor functionFloor fits
  rcases Arrives.of_accept found classify fits with ⟨value, arrives⟩ | arrives
  · have few : whole.body.length < cursor.position + 1 + room := by
      rw [Nat.add_right_comm]
      exact fits.few
    have moved : Cursor.Fits whole room loopFloor functionFloor
        { cursor with position := cursor.position + 1 } :=
      ⟨few, arrives.inside, fits.loop_le, fits.function_le⟩
    rcases (taken value).outcome moved with ⟨outcome, goes_on⟩
    exact ⟨outcome, arrives.bind goes_on⟩
  · rcases left.outcome fits with ⟨outcome, goes_on⟩
    exact ⟨outcome, arrives.bind goes_on⟩

theorem expect (kind : Token.Kind) (cause : SyntaxError.Cause) :
    Completes tokens whole room (expect kind cause) := by
  apply (accept found _).bind
  rintro (_ | token)
  · exact fail found cause
  · exact pure token

theorem expectSymbol (kind : Token.Kind) (place : SyntaxError.Place) :
    Completes tokens whole room (expectSymbol kind place) :=
  expect found kind (.missingSymbol kind place)

end

/-- Repetition ends, since every step that goes on reads a token. -/
theorem loop {step : α → Parser (Option α)} (advances : Advances step)
    (steps : ∀ value, Completes tokens whole room (step value)) (value : α) :
    Completes tokens whole room (loop step value) := by
  constructor
  intro cursor loopFloor functionFloor fits
  rw [advances.loop_eq value]
  induction left : whole.body.length - cursor.position using Nat.strongRecOn
    generalizing value cursor with
  | _ left ih =>
      rcases (steps value).outcome fits with ⟨⟨next, middle⟩ | _, arrives⟩
      · have middle_fits := arrives.fits_endOf fits
        cases next with
        | none =>
            rcases (pure value).outcome middle_fits with ⟨outcome, stays⟩
            exact ⟨outcome, arrives.bind stays⟩
        | some next =>
            have shorter := advances.progress arrives.run_eq
            simp only [Cursor.state, List.length_drop] at shorter
            rcases ih (whole.body.length - middle.position) (by omega) next middle_fits rfl with
              ⟨outcome, goes_on⟩
            rw [← advances.loop_eq next] at goes_on
            exact ⟨outcome, arrives.bind goes_on⟩
      · exact ⟨_, arrives.bindError⟩

theorem many {item : Parser (Option α)} (advances : ItemAdvances item)
    (items : Completes tokens whole room item) : Completes tokens whole room (many item) := by
  rw [many_eq_loop]
  refine bind (loop advances.advances_collect (fun earlier => ?_) []) fun reversed =>
    pure reversed.reverse
  exact items.bind fun found => pure (found.map (· :: earlier))

section

variable (found : Tokens.ofList? tokens = some whole)
include found

theorem member (excess : SyntaxError.Cause) (items : Completes tokens whole room parser)
    (earlier : List α) : Completes tokens whole room (member excess parser earlier) := by
  have added : Completes tokens whole room (parser >>= fun value => Pure.pure (value :: earlier)) :=
    items.bind fun value => pure (value :: earlier)
  unfold Parser.member
  split
  · exact (reportHere found excess).bind fun _ => added
  · exact added

theorem separated {excess : SyntaxError.Cause} (advances : Advances (furtherMember excess parser))
    (items : Completes tokens whole room parser) :
    Completes tokens whole room (separated excess parser) := by
  rw [separated_eq]
  refine (member found excess items []).bind fun first => (loop advances ?_ first).map List.reverse
  intro earlier
  apply (accept found _).bind
  rintro (_ | comma)
  · exact pure none
  · exact (member found excess items earlier).bind fun values => pure (some values)

theorem closedList {excess : SyntaxError.Cause} (advances : Advances (furtherMember excess parser))
    (place : SyntaxError.Place) (items : Completes tokens whole room parser) :
    Completes tokens whole room (closedList excess place parser) := by
  have close (values : List α) : Completes tokens whole room
      (Parser.expectSymbol .rightParen place >>= fun paren => Pure.pure (values, paren)) :=
    (expectSymbol found .rightParen place).bind fun paren => pure (values, paren)
  apply (check found .rightParen).bind
  rintro (_ | _)
  · exact (separated found advances items).bind close
  · exact close []

end

/-- The body of a loop leaves the counter of loops one above where it was, and counting down
restores it. -/
theorem inLoop (bodies : Completes tokens whole room parser) :
    Completes tokens whole room (inLoop parser) := by
  constructor
  intro cursor loopFloor functionFloor fits
  have inner : Cursor.Fits whole room loopFloor functionFloor
      { cursor with loopDepth := cursor.loopDepth + 1 } :=
    ⟨fits.few, fits.inside, Nat.le_succ_of_le fits.loop_le, fits.function_le⟩
  rcases bodies.outcome inner with ⟨outcome, arrives⟩
  have above : loopFloor < (endOf outcome).loopDepth :=
    arrives.loopDepth_eq ▸ Nat.lt_succ_of_le fits.loop_le
  refine ⟨_, .inLoop arrives.proceeds above, ?_, ?_, ?_, ?_, ?_⟩
  · refine (inLoop_eq_mapEnd parser _).trans ((congrArg _ arrives.run_eq).trans ?_)
    rw [mapEnd_mapEnd, mapEnd_mapEnd]
    rfl
  · rw [endOf_mapEnd]
    exact arrives.forward
  · rw [endOf_mapEnd]
    exact arrives.inside
  · rw [endOf_mapEnd, arrives.loopDepth_eq]
    rfl
  · rw [endOf_mapEnd]
    exact arrives.functionDepth_eq

/-- The body of a function counts loops from zero, and the counter around it is put back. -/
theorem inFunction (bodies : Completes tokens whole room parser) :
    Completes tokens whole room (inFunction parser) := by
  constructor
  intro cursor loopFloor functionFloor fits
  have inner : Cursor.Fits whole room 0 functionFloor
      { cursor with loopDepth := 0, functionDepth := cursor.functionDepth + 1 } :=
    ⟨fits.few, fits.inside, Nat.le_refl 0, Nat.le_succ_of_le fits.function_le⟩
  rcases bodies.outcome inner with ⟨outcome, arrives⟩
  have above : functionFloor < (endOf outcome).functionDepth :=
    arrives.functionDepth_eq ▸ Nat.lt_succ_of_le fits.function_le
  refine ⟨_, .inFunction arrives.proceeds above, ?_, ?_, ?_, ?_, ?_⟩
  · refine (inFunction_eq_mapEnd parser _).trans ((congrArg _ arrives.run_eq).trans ?_)
    rw [mapEnd_mapEnd, mapEnd_mapEnd]
    rfl
  · rw [endOf_mapEnd]
    exact arrives.forward
  · rw [endOf_mapEnd]
    exact arrives.inside
  · rw [endOf_mapEnd]
  · rw [endOf_mapEnd, arrives.functionDepth_eq]
    rfl

theorem recovering (found : Tokens.ofList? tokens = some whole)
    (parts : Completes tokens whole room parser) :
    Completes tokens whole room (recovering parser) := by
  constructor
  intro cursor loopFloor functionFloor fits
  have inner : cursor.Fits whole room cursor.loopDepth cursor.functionDepth :=
    ⟨fits.few, fits.inside, Nat.le_refl _, Nat.le_refl _⟩
  rcases parts.outcome inner with ⟨⟨value, after⟩ | ⟨error, after⟩, arrives⟩
  · exact ⟨_, .kept arrives.proceeds, recovering_of_ok arrives.run_eq, arrives.forward,
      arrives.inside, arrives.loopDepth_eq, arrives.functionDepth_eq⟩
  · rcases exists_resumes found arrives.inside with ⟨final, resumes, resume_eq, forward, inside⟩
    refine ⟨_, .recovered arrives.proceeds resumes, ?_, Nat.le_trans arrives.forward forward,
      inside, arrives.loopDepth_eq, arrives.functionDepth_eq⟩
    rw [recovering_of_error arrives.run_eq]
    simp only [mapEnd, Cursor.state, State.past]
    rw [show resume (whole.body.drop after.position) = _ from resume_eq]

end Completes

end Scriptlet.Parser
