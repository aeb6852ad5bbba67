import Scriptlet.Proofs.Parser.Reading

/-!
# What a parser accepts

`Accepts` is the converse of `Reads`: in front of a given rest, a parser does take certain tokens
and make a certain value of them. Nothing is left to the state but the depth counters, which say
what the parser stands in, and the errors reported on the way, which are all tolerated.

There is a rule for each way in which parsers are put together. What follows the tokens matters:
a parser that could read on must find something there that stops it.
-/

namespace Scriptlet.Parser

open Grammar

variable {α β : Type} {tolerated : Tolerance} {surroundings : Surroundings}
  {tokens rest : List Token}

/-- How a state changes when everything before a rest is read. -/
structure State.Reaches (tolerated : Tolerance) (rest : List Token) (before after : State) :
    Prop where
  rest_eq : after.rest = rest
  loopDepth_eq : after.loopDepth = before.loopDepth
  functionDepth_eq : after.functionDepth = before.functionDepth
  errors_eq : ∃ added, after.errors = before.errors ++ added ∧
    ∀ error ∈ added, tolerated error.cause

namespace State.Reaches

theorem of_rest {state : State} : state.Reaches tolerated rest { state with rest } :=
  ⟨rfl, rfl, rfl, [], by simp⟩

theorem refl {state : State} (rest_eq : state.rest = rest) :
    state.Reaches tolerated rest state :=
  ⟨rest_eq, rfl, rfl, [], by simp⟩

theorem trans {middleRest : List Token} {before middle after : State}
    (first : before.Reaches tolerated middleRest middle)
    (second : middle.Reaches tolerated rest after) : before.Reaches tolerated rest after := by
  rcases first.errors_eq with ⟨earlier, earlier_eq, earlier_tolerated⟩
  rcases second.errors_eq with ⟨later, later_eq, later_tolerated⟩
  refine ⟨second.rest_eq, second.loopDepth_eq.trans first.loopDepth_eq,
    second.functionDepth_eq.trans first.functionDepth_eq, earlier ++ later, ?_, ?_⟩
  · rw [later_eq, earlier_eq, List.append_assoc]
  · intro error error_mem
    rcases List.mem_append.mp error_mem with error_mem | error_mem
    · exact earlier_tolerated error error_mem
    · exact later_tolerated error error_mem

theorem surroundings_eq {before after : State} (reaches : before.Reaches tolerated rest after) :
    after.surroundings = before.surroundings := by
  simp [surroundings, reaches.loopDepth_eq, reaches.functionDepth_eq]

/-- If no error is tolerated, nothing but the rest changes. -/
theorem after_eq {before after : State} (reaches : before.Reaches strict rest after) :
    after = { before with rest } := by
  rcases reaches.errors_eq with ⟨added, added_eq, all⟩
  have added_nil : added = [] := List.eq_nil_iff_forall_not_mem.mpr all
  rw [added_nil, List.append_nil] at added_eq
  rw [← reaches.rest_eq, ← added_eq, ← reaches.loopDepth_eq, ← reaches.functionDepth_eq]

end State.Reaches

/-- In front of a rest, and in surroundings, a parser reads tokens and makes a value of them. -/
def Accepts (tolerated : Tolerance) (parser : Parser α) (surroundings : Surroundings)
    (tokens rest : List Token) (value : α) : Prop :=
  ∀ before : State, before.rest = tokens ++ rest → before.surroundings = surroundings →
    ∃ after, parser before = .ok value after ∧ before.Reaches tolerated rest after

theorem Accepts.bind {parser : Parser α} {next : α → Parser β} {left right : List Token}
    {value : α} {result : β}
    (first : Accepts tolerated parser surroundings left (right ++ rest) value)
    (second : Accepts tolerated (next value) surroundings right rest result) :
    Accepts tolerated (parser >>= next) surroundings (left ++ right) rest result := by
  intro before rest_eq surroundings_eq
  rw [List.append_assoc] at rest_eq
  rcases first before rest_eq surroundings_eq with ⟨middle, firstRun, reached⟩
  have middle_surroundings := reached.surroundings_eq.trans surroundings_eq
  rcases second middle reached.rest_eq middle_surroundings with ⟨after, secondRun, reaches⟩
  exact ⟨after, (bind_of_ok firstRun).trans secondRun, reached.trans reaches⟩

theorem accepts_pure {value : α} :
    Accepts tolerated (pure value) surroundings [] rest value := by
  intro before rest_eq _
  exact ⟨before, rfl, .refl rest_eq⟩

/-- What comes last may read nothing. -/
theorem Accepts.bind_look {parser : Parser α} {next : α → Parser β} {value : α} {result : β}
    (first : Accepts tolerated parser surroundings tokens rest value)
    (second : Accepts tolerated (next value) surroundings [] rest result) :
    Accepts tolerated (parser >>= next) surroundings tokens rest result := by
  have both : Accepts tolerated (parser >>= next) surroundings (tokens ++ []) rest result :=
    first.bind second
  rwa [List.append_nil] at both

theorem Accepts.bind_pure {parser : Parser α} {value : α} {result : β} {next : α → Parser β}
    (accepts : Accepts tolerated parser surroundings tokens rest value)
    (next_eq : next value = pure result) :
    Accepts tolerated (parser >>= next) surroundings tokens rest result := by
  refine accepts.bind_look ?_
  rw [next_eq]
  exact accepts_pure

theorem Accepts.map {parser : Parser α} {value : α}
    (accepts : Accepts tolerated parser surroundings tokens rest value) (wrap : α → β) :
    Accepts tolerated (wrap <$> parser) surroundings tokens rest (wrap value) := by
  rw [map_eq_pure_bind]
  exact accepts.bind_pure rfl

/-- What comes first may read nothing. -/
theorem Accepts.of_look {parser : Parser α} {next : α → Parser β} {value : α} {result : β}
    (first : Accepts tolerated parser surroundings [] (tokens ++ rest) value)
    (second : Accepts tolerated (next value) surroundings tokens rest result) :
    Accepts tolerated (parser >>= next) surroundings tokens rest result :=
  first.bind second

theorem accepts_report {error : SyntaxError} (allowed : tolerated error.cause) :
    Accepts tolerated (report error) surroundings [] rest () := by
  intro before rest_eq _
  exact ⟨_, rfl, rest_eq, rfl, rfl, [error], rfl, by simpa using allowed⟩

theorem accepts_reportHere {cause : SyntaxError.Cause} (allowed : tolerated cause) :
    Accepts tolerated (reportHere cause) surroundings [] rest () := by
  intro before rest_eq _
  exact ⟨_, rfl, rest_eq, rfl, rfl, [⟨cause, before.rest.head?⟩], rfl, by simpa using allowed⟩

theorem accepts_atEnd :
    Accepts tolerated atEnd surroundings [] rest rest.isEmpty := by
  intro before rest_eq _
  refine ⟨before, ?_, .refl rest_eq⟩
  simp [atEnd, rest_eq]

theorem accepts_check {kind : Token.Kind} (known : Token.OfKind kind) :
    Accepts tolerated (check kind) surroundings [] (known.token :: rest) true := by
  intro before rest_eq _
  refine ⟨before, ?_, .refl rest_eq⟩
  simp [check, rest_eq, known.kind_eq]

theorem accepts_check_false {kind : Token.Kind}
    (refused : ∀ token ∈ rest.head?, token.kind ≠ kind) :
    Accepts tolerated (check kind) surroundings [] rest false := by
  intro before rest_eq _
  refine ⟨before, ?_, .refl rest_eq⟩
  rw [List.nil_append] at rest_eq
  have absent : rest.head?.any (·.kind = kind) = false := by
    rw [Option.any_eq_false]
    simpa using refused
  simp [check, rest_eq, absent]

theorem accepts_get_bind {next : State → Parser α} {value : α}
    (accepts : ∀ state : State, state.rest = tokens ++ rest →
      state.surroundings = surroundings →
      Accepts tolerated (next state) surroundings tokens rest value) :
    Accepts tolerated (get >>= next) surroundings tokens rest value := by
  intro before rest_eq surroundings_eq
  exact accepts before rest_eq surroundings_eq before rest_eq surroundings_eq

section Tokens

variable {classify : Token → Option α}

theorem accepts_accept {token : Token} {value : α} (classified : classify token = some value) :
    Accepts tolerated (accept classify) surroundings [token] rest (some value) := by
  intro before rest_eq _
  exact ⟨{ before with rest }, accept_some rest_eq classified, .of_rest⟩

theorem accepts_accept_none (refused : ∀ token ∈ rest.head?, classify token = none) :
    Accepts tolerated (accept classify) surroundings [] rest none := by
  intro before rest_eq _
  rw [List.nil_append] at rest_eq
  exact ⟨before, accept_none (by rwa [rest_eq]), .refl rest_eq⟩

theorem accepts_acceptKind {kind : Token.Kind} (known : Token.OfKind kind) :
    Accepts tolerated (acceptKind kind) surroundings [known.token] rest (some known) :=
  accepts_accept (Token.OfKind.of?_token known)

theorem accepts_acceptKind_none {kind : Token.Kind}
    (refused : ∀ token ∈ rest.head?, token.kind ≠ kind) :
    Accepts tolerated (acceptKind kind) surroundings [] rest none := by
  apply accepts_accept_none
  intro token token_mem
  exact Token.OfKind.of?_eq_none_iff.mpr (refused token token_mem)

theorem accepts_expect {kind : Token.Kind} {cause : SyntaxError.Cause}
    (known : Token.OfKind kind) :
    Accepts tolerated (expect kind cause) surroundings [known.token] rest known :=
  (accepts_acceptKind known).bind_pure rfl

theorem accepts_expectSymbol {kind : Token.Kind} {place : SyntaxError.Place}
    (known : Token.OfKind kind) :
    Accepts tolerated (expectSymbol kind place) surroundings [known.token] rest known :=
  accepts_expect known

end Tokens

section Repetition

variable {step : α → Parser (Option α)} {value result : α}

/-- A repetition accepts tokens whenever it may take at least as many steps as there are. -/
def AcceptsLoop (tolerated : Tolerance) (step : α → Parser (Option α))
    (surroundings : Surroundings) (tokens rest : List Token) (value result : α) : Prop :=
  ∀ bound : List Token, tokens.length ≤ bound.length →
    Accepts tolerated (iterate step bound value) surroundings tokens rest result

theorem acceptsLoop_end (last : Accepts tolerated (step value) surroundings [] rest none) :
    AcceptsLoop tolerated step surroundings [] rest value value := by
  intro bound _
  cases bound with
  | nil => exact accepts_pure
  | cons _ bound => exact last.bind_pure rfl

theorem acceptsLoop_more {left right : List Token} {next : α}
    (first : Accepts tolerated (step value) surroundings left (right ++ rest) (some next))
    (progress : left ≠ [])
    (others : AcceptsLoop tolerated step surroundings right rest next result) :
    AcceptsLoop tolerated step surroundings (left ++ right) rest value result := by
  intro bound enough
  have left_pos := List.length_pos_iff.mpr progress
  rw [List.length_append] at enough
  cases bound with
  | nil => simp only [List.length_nil] at enough; omega
  | cons _ bound =>
      rw [List.length_cons] at enough
      exact first.bind (others bound (by omega))

theorem accepts_loop (accepts : AcceptsLoop tolerated step surroundings tokens rest value result) :
    Accepts tolerated (loop step value) surroundings tokens rest result := by
  intro before rest_eq surroundings_eq
  have enough : tokens.length ≤ before.rest.length := by simp [rest_eq]
  exact accepts before.rest enough before rest_eq surroundings_eq

/-- Items in order are read one by one, up to where an item gives nothing. -/
theorem accepts_many {item : Parser (Option α)} (parts : List (List Token × α))
    (each : ∀ earlier part later, parts = earlier ++ part :: later →
      Accepts tolerated item surroundings part.1 (later.flatMap Prod.fst ++ rest)
        (some part.2) ∧ part.1 ≠ [])
    (last : Accepts tolerated item surroundings [] rest none) :
    Accepts tolerated (many item) surroundings (parts.flatMap Prod.fst) rest
      (parts.map Prod.snd) := by
  have looped (values : List α) :
      AcceptsLoop tolerated (fun earlier => do pure ((← item).map (· :: earlier))) surroundings
        (parts.flatMap Prod.fst) rest values ((parts.map Prod.snd).reverse ++ values) := by
    induction parts generalizing values with
    | nil => exact acceptsLoop_end (last.bind_pure rfl)
    | cons part parts ih =>
        have first := each [] part parts rfl
        have stepped : Accepts tolerated
            (do pure ((← item).map (· :: values))) surroundings part.1
            (parts.flatMap Prod.fst ++ rest) (some (part.2 :: values)) :=
          first.1.bind_pure rfl
        have later := ih (fun earlier other others parts_eq =>
          each (part :: earlier) other others (by simp [parts_eq])) (part.2 :: values)
        simpa using acceptsLoop_more stepped first.2 later
  apply (accepts_loop (looped [])).bind_pure
  simp

end Repetition

section Lists

variable {item : Parser α} {excess : SyntaxError.Cause}

theorem accepts_member {value : α} (earlier : List α)
    (accepts : Accepts tolerated item surroundings tokens rest value)
    (few : earlier.length < maxArity ∨ tolerated excess) :
    Accepts tolerated (member excess item earlier) surroundings tokens rest
      (value :: earlier) := by
  have read : Accepts tolerated (item >>= fun value => pure (value :: earlier)) surroundings
      tokens rest (value :: earlier) := accepts.bind_pure rfl
  by_cases full : maxArity ≤ earlier.length
  · simp only [member, full, if_true]
    have allowed := few.resolve_left (Nat.not_lt.mpr full)
    exact (accepts_reportHere allowed).of_look read
  · simpa only [member, full, if_false] using read

/-- A token that can stand after an item of a list. -/
def EndsItem (token : Token) : Prop :=
  token.kind = .comma ∨ token.kind = .rightParen

/-- What follows the first item of a list: a comma and an item, again and again. -/
theorem acceptsLoop_separated {first : List Token} {pieces : List (List Token × α)}
    (commas : Separated (first :: pieces.map Prod.fst) tokens)
    (each : ∀ piece ∈ pieces, ∀ later : List Token, (∀ token ∈ later.head?, EndsItem token) →
      Accepts tolerated item surroundings piece.1 later piece.2)
    (closed : ∀ token ∈ rest.head?, token.kind = .rightParen) (values : List α)
    (few : pieces.length + values.length ≤ maxArity ∨ tolerated excess) :
    ∃ others, tokens = first ++ others ∧ (∀ token ∈ (others ++ rest).head?, EndsItem token) ∧
      AcceptsLoop tolerated
        (fun earlier => do
          match ← acceptKind .comma with
          | some _ => do pure (some (← member excess item earlier))
          | none => pure none)
        surroundings others rest values ((pieces.map Prod.snd).reverse ++ values) := by
  induction pieces generalizing first tokens values with
  | nil =>
      cases commas
      refine ⟨[], by simp, fun token token_mem => .inr (closed token token_mem), ?_⟩
      apply acceptsLoop_end
      refine (accepts_acceptKind_none ?_).bind_pure rfl
      intro token token_mem kind_eq
      rw [closed token token_mem] at kind_eq
      cases kind_eq
  | cons piece pieces ih =>
      cases commas with
      | @comma _ _ _ others comma commas =>
          rw [List.forall_mem_cons] at each
          have fewer : pieces.length + (piece.2 :: values).length ≤ maxArity ∨
              tolerated excess := by
            simpa [Nat.add_assoc, Nat.add_comm 1] using few
          rcases ih commas each.2 (piece.2 :: values) fewer with
            ⟨later, rfl, ends, accepts⟩
          have room : values.length < maxArity ∨ tolerated excess := by
            refine few.imp_left ?_
            intro few
            rw [List.length_cons] at few
            omega
          have stepped : Accepts tolerated
              (do
                match ← acceptKind .comma with
                | some _ => do pure (some (← member excess item values))
                | none => pure none)
              surroundings (comma.token :: piece.1) (later ++ rest)
              (some (piece.2 :: values)) :=
            (accepts_acceptKind comma).bind
              ((accepts_member values (each.1 _ ends) room).bind_pure rfl)
          refine ⟨comma.token :: (piece.1 ++ later), rfl, ?_, ?_⟩
          · intro token token_mem
            cases token_mem
            exact .inl comma.kind_eq
          · simpa using acceptsLoop_more stepped (by simp) accepts

/-- The items of a list and the parenthesis that closes it are read if no item can be taken for the
parenthesis. -/
theorem accepts_closedList {place : SyntaxError.Place} {pieces : List (List Token × α)}
    {inner : List Token} (paren : Token.OfKind .rightParen)
    (commas : Separated (pieces.map Prod.fst) inner)
    (each : ∀ piece ∈ pieces, ∀ later : List Token, (∀ token ∈ later.head?, EndsItem token) →
      Accepts tolerated item surroundings piece.1 later piece.2)
    (starts : ∀ piece ∈ pieces, ∃ token others, piece.1 = token :: others ∧
      token.kind ≠ .rightParen)
    (few : pieces.length ≤ maxArity ∨ tolerated excess) :
    Accepts tolerated (closedList excess place item) surroundings
      (inner ++ [paren.token]) rest (pieces.map Prod.snd, paren) := by
  have close (items : List α) : Accepts tolerated
      (do
        let paren ← expectSymbol .rightParen place
        pure (items, paren))
      surroundings [paren.token] rest (items, paren) :=
    (accepts_expectSymbol paren).bind_pure rfl
  cases pieces with
  | nil =>
      cases commas
      refine Accepts.of_look (accepts_check paren) ?_
      exact close []
  | cons piece pieces =>
      rw [List.forall_mem_cons] at each starts
      have closed : ∀ token ∈ ([paren.token] ++ rest).head?, token.kind = .rightParen := by
        simp [paren.kind_eq]
      have room : pieces.length + [piece.2].length ≤ maxArity ∨ tolerated excess := few
      rcases acceptsLoop_separated commas each.2 closed [piece.2] room with
        ⟨others, rfl, ends, accepts⟩
      have items : Accepts tolerated (separated excess item) surroundings
          (piece.1 ++ others) ([paren.token] ++ rest) (piece.2 :: pieces.map Prod.snd) := by
        apply (accepts_member [] (each.1 _ ends) (.inl (by simp [maxArity]))).bind
        apply (accepts_loop accepts).bind_pure
        simp
      have opens : ∀ token ∈ (piece.1 ++ others ++ [paren.token] ++ rest).head?,
          token.kind ≠ .rightParen := by
        rcases starts.1 with ⟨start, later, piece_eq, kind_ne⟩
        simpa [piece_eq] using kind_ne
      refine Accepts.of_look (accepts_check_false opens) ?_
      exact items.bind (close _)

end Lists

section Nesting

variable {parser : Parser α} {value : α}

theorem accepts_inLoop
    (accepts : Accepts tolerated parser ⟨true, surroundings.inFunction⟩ tokens rest value) :
    Accepts tolerated (inLoop parser) surroundings tokens rest value := by
  intro before rest_eq surroundings_eq
  rcases accepts { before with loopDepth := before.loopDepth + 1 } rest_eq
    (by simp [← surroundings_eq, State.surroundings]) with ⟨after, run, reaches⟩
  refine ⟨{ after with loopDepth := after.loopDepth - 1 }, by simp only [inLoop, run], ?_⟩
  exact ⟨reaches.rest_eq, by simp [reaches.loopDepth_eq], reaches.functionDepth_eq,
    reaches.errors_eq⟩

theorem accepts_inFunction
    (accepts : Accepts tolerated parser ⟨false, true⟩ tokens rest value) :
    Accepts tolerated (inFunction parser) surroundings tokens rest value := by
  intro before rest_eq _
  rcases accepts
    { before with loopDepth := 0, functionDepth := before.functionDepth + 1 } rest_eq
    (by simp [State.surroundings]) with ⟨after, run, reaches⟩
  refine ⟨{ after with
    loopDepth := before.loopDepth, functionDepth := after.functionDepth - 1 },
    by simp only [inFunction, run], ?_⟩
  exact ⟨reaches.rest_eq, rfl, by simp [reaches.functionDepth_eq], reaches.errors_eq⟩

theorem accepts_recovering
    (accepts : Accepts tolerated parser surroundings tokens rest value) :
    Accepts tolerated (recovering parser) surroundings tokens rest (some value) := by
  intro before rest_eq surroundings_eq
  rcases accepts before rest_eq surroundings_eq with ⟨after, run, reaches⟩
  exact ⟨after, by simp only [recovering, run], reaches⟩

end Nesting

end Scriptlet.Parser
