import Scriptlet.Proofs.Parser.Prediction

/-!
# Rules for looking ahead

What is foreseen of readers that are put together from foreseeing ones: after tokens that are taken
or not, in repetitions and lists, in loops and functions, and with recovery.
-/

namespace Scriptlet.Parser

open Grammar

variable {α β γ : Type} {tolerated : Tolerance} {room : Nat} {lookahead : Lookahead}

section Eating

variable {parser : Parser α} {next : α → Parser β}

/-- What reads some token leaves fewer. -/
theorem length_lt_of_reads {described : Surroundings → List Token → List Token → α → Prop}
    (reads : Reads (fun _ => True) parser described) {before after : State} {value : α}
    (run : parser before = .ok value after)
    (progress : ∀ tokens, described before.surroundings tokens after.rest value → tokens ≠ []) :
    after.rest.length < before.rest.length := by
  obtain ⟨tokens, rest_eq, holds⟩ := reads.described_of_ok run fun _ _ => trivial
  have read := List.length_pos_iff.mpr (progress tokens holds)
  rw [rest_eq, List.length_append]
  omega

theorem Eats.bind (eats : Eats parser)
    (leads : ∀ value (before : State), before.Leads (stop (next value) before)) :
    Eats (parser >>= next) := by
  constructor
  intro before after result run
  cases first_run : parser before with
  | error error middle =>
      rw [bind_of_error first_run] at run
      cases run
  | ok value middle =>
      rw [bind_of_ok first_run] at run
      have shorter := (leads value middle).length_le
      rw [stop_of_ok run] at shorter
      exact Nat.lt_of_le_of_lt shorter (eats.shorter first_run)

theorem Eats.of_later (leads : ∀ before : State, before.Leads (stop parser before))
    (eats : ∀ value, Eats (next value)) : Eats (parser >>= next) := by
  constructor
  intro before after result run
  cases first_run : parser before with
  | error error middle =>
      rw [bind_of_error first_run] at run
      cases run
  | ok value middle =>
      rw [bind_of_ok first_run] at run
      have shorter := (leads before).length_le
      rw [stop_of_ok first_run] at shorter
      exact Nat.lt_of_lt_of_le ((eats value).shorter run) shorter

theorem Eats.bind_pure (eats : Eats parser) (wrap : α → β) :
    Eats (parser >>= fun value => pure (wrap value)) :=
  eats.bind fun value => (@reads_pure _ strict (wrap value)).leads

theorem Eats.map (eats : Eats parser) (wrap : α → β) : Eats (wrap <$> parser) := by
  rw [map_eq_pure_bind]
  exact eats.bind_pure wrap

theorem eats_accept_bind {classify : Token → Option γ} {next : Option γ → Parser β}
    (leads : ∀ value (before : State), before.Leads (stop (next (some value)) before))
    (eats : Eats (next none)) : Eats (accept classify >>= next) := by
  constructor
  intro before after result run
  rcases accept_cases classify before with
    ⟨token, rest, value, rest_eq, _, accepted⟩ | ⟨_, accepted⟩
  · rw [bind_of_ok accepted] at run
    have shorter := (leads value { before with rest }).length_le
    rw [stop_of_ok run] at shorter
    rw [rest_eq, List.length_cons]
    exact Nat.lt_succ_of_le shorter
  · rw [bind_of_ok accepted] at run
    exact eats.shorter run

/-- What always reads some token eats. -/
theorem Eats.of_reads {described : Surroundings → List Token → List Token → α → Prop}
    (reads : Reads (fun _ => True) parser described)
    (progress : ∀ surroundings tokens rest value,
      described surroundings tokens rest value → tokens ≠ []) : Eats parser :=
  ⟨fun run => length_lt_of_reads reads run fun _ => progress _ _ _ _⟩

theorem itemAdvances_of_reads {item : Parser (Option α)}
    {described : Surroundings → List Token → List Token → Option α → Prop}
    (idle : ∀ state : State, state.rest = [] → item state = .ok none state)
    (reads : Reads (fun _ => True) item described)
    (progress : ∀ surroundings tokens rest value,
      described surroundings tokens rest (some value) → tokens ≠ []) : ItemAdvances item :=
  ⟨idle, fun run => length_lt_of_reads reads run fun _ => progress _ _ _ _⟩

theorem eats_fail (cause : SyntaxError.Cause) : Eats (fail cause : Parser α) := by
  constructor
  intro before after value run
  cases run

theorem eats_expect (kind : Token.Kind) (cause : SyntaxError.Cause) : Eats (expect kind cause) :=
  eats_accept_bind (fun known => (@reads_pure _ strict known).leads) (eats_fail cause)

end Eating

section Taking

variable {classify : Token → Option γ} {next : Option γ → Parser β}

/-- A token that is not there where a reader stops looking for it is not behind what it reads
instead either. -/
structure Refuses (lookahead : Lookahead) (classify : Token → Option γ) (otherwise : Parser β) :
    Prop where
  refused : ∀ {state : State} {read right : List Token},
    (∀ token ∈ state.rest.head?, classify token = none) →
    state.rest = read ++ (stop otherwise state).rest →
    Follows lookahead (otherwise state) right →
    ∀ token ∈ (read ++ right).head?, classify token = none

theorem Refuses.of_eats {otherwise : Parser β} (eats : Eats otherwise) :
    Refuses lookahead classify otherwise := by
  constructor
  intro state read right refused rest_eq follows
  suffices same : (read ++ right).head? = state.rest.head? by rwa [same]
  rw [rest_eq]
  cases run : otherwise state with
  | error error after =>
      rw [run] at follows
      rw [stop_of_error run]
      exact head?_append_eq follows read
  | ok value after =>
      have shorter := eats.shorter run
      rw [rest_eq, stop_of_ok run, List.length_append] at shorter
      cases read with
      | nil => simp at shorter
      | cons => rfl

theorem Refuses.of_minds {otherwise : Parser β}
    (minds : ∀ {left right : List Token}, lookahead.Allows left right →
      (∀ token ∈ left.head?, classify token = none) →
      ∀ token ∈ right.head?, classify token = none) :
    Refuses lookahead classify otherwise := by
  constructor
  intro state read right refused rest_eq follows
  rw [rest_eq] at refused
  apply minds _ refused
  cases run : otherwise state with
  | error error after =>
      rw [run] at follows
      rw [stop_of_error run]
      exact lookahead.allows_of_head?_eq (head?_append_eq follows read)
  | ok value after =>
      rw [run] at follows
      rw [stop_of_ok run]
      exact Lookahead.Allows.append follows read

theorem refuses_anything {otherwise : Parser β} : Refuses .anything classify otherwise :=
  .of_minds fun same refused => by
    have head_eq : _ = _ := same
    rwa [head_eq]

theorem refuses_elseWord {otherwise : Parser β} :
    Refuses .elseWord (Token.OfKind.of? .elseWord) otherwise :=
  .of_minds fun allows refused token token_mem =>
    Token.OfKind.of?_eq_none_iff.mpr <|
      allows (fun other other_mem => Token.OfKind.of?_eq_none_iff.mp (refused other other_mem))
        token token_mem

theorem Foresees.accept_bind {hit : γ → Surroundings → List Token → Prop}
    {miss : Surroundings → List Token → Prop}
    (taken : ∀ value, Foresees room tolerated lookahead (next (some value)) (hit value))
    (left : Foresees (room + 1) tolerated lookahead (next none) miss)
    (refuses : Refuses lookahead classify (next none)) :
    Foresees (room + 1) tolerated lookahead (accept classify >>= next) fun surroundings read =>
      (∃ token value others, read = token :: others ∧ classify token = some value ∧
        hit value surroundings others) ∨
      miss surroundings read :=
  .accept_bind_of taken left refuses.refused

theorem Foresees.acceptKind_bind {kind : Token.Kind} {next : Option (Token.OfKind kind) → Parser β}
    {hit : Token.OfKind kind → Surroundings → List Token → Prop}
    {miss : Surroundings → List Token → Prop}
    (taken : ∀ known, Foresees room tolerated lookahead (next (some known)) (hit known))
    (left : Foresees (room + 1) tolerated lookahead (next none) miss)
    (refuses : Refuses lookahead (Token.OfKind.of? kind) (next none)) :
    Foresees (room + 1) tolerated lookahead (acceptKind kind >>= next) fun surroundings read =>
      (∃ (known : Token.OfKind kind) (others : List Token), read = known.token :: others ∧
        hit known surroundings others) ∨
      miss surroundings read := by
  apply (Foresees.accept_bind taken left refuses).mono
  rintro surroundings read (⟨token, known, others, rfl, classified, holds⟩ | holds)
  · rw [Token.OfKind.of?_eq_some_iff] at classified
    subst classified
    exact .inl ⟨known, others, rfl, holds⟩
  · exact .inr holds

theorem foresees_accept (classify : Token → Option γ) :
    Foresees room tolerated .anything (accept classify) fun _ _ => False := by
  cases room with
  | zero => exact .zero (@reads_accept _ strict classify).leads
  | succ room =>
      have accepted : Foresees (room + 1) tolerated .anything (accept classify >>= pure) _ :=
        .accept_bind (fun value => foresees_pure (some value)) (foresees_pure none) refuses_anything
      rw [bind_pure] at accepted
      apply accepted.mono
      rintro surroundings read (⟨_, _, _, _, _, impossible⟩ | impossible) <;> exact impossible

theorem foresees_expect (kind : Token.Kind) (cause : SyntaxError.Cause) :
    Foresees room tolerated lookahead (expect kind cause) fun _ read => read = [] := by
  cases room with
  | zero =>
      refine .zero (leads_bind (@reads_accept _ strict _).leads fun found => ?_)
      cases found <;> exact State.Leads.refl
  | succ room =>
      apply (Foresees.acceptKind_bind (fun known => foresees_pure known) (foresees_fail cause)
        (.of_eats (eats_fail cause))).mono
      rintro surroundings read (⟨_, _, _, impossible⟩ | nothing)
      · exact impossible.elim
      · exact nothing

theorem foresees_expectSymbol (kind : Token.Kind) (place : SyntaxError.Place) :
    Foresees room tolerated lookahead (expectSymbol kind place) fun _ read => read = [] :=
  foresees_expect kind _

end Taking

theorem Foresees.map {parser : Parser α} {unfinished : Surroundings → List Token → Prop}
    (foresees : Foresees room tolerated lookahead parser unfinished) (wrap : α → β) :
    Foresees room tolerated lookahead (wrap <$> parser) unfinished := by
  have leads_of_ok {before after : State} {value : α} (run : parser before = .ok value after) :
      before.Leads after := stop_of_ok run ▸ foresees.leads before
  rw [map_eq_pure_bind]
  let anything : Surroundings → List Token → List Token → α → Prop := fun _ _ _ _ => True
  have reads {before after : State} {value : α} (run : parser before = .ok value after)
      (_ : ∀ error ∈ after.errors, tolerated error.cause) :
      ∃ tokens, before.rest = tokens ++ after.rest ∧
        anything before.surroundings tokens after.rest value := by
    obtain ⟨tokens, rest_eq⟩ := (leads_of_ok run).rest_suffix
    exact ⟨tokens, rest_eq.symm, trivial⟩
  have wrapped (value : α) :
      Foresees room tolerated lookahead (pure (wrap value)) fun _ _ => False :=
    foresees_pure (wrap value)
  refine (foresees.bind_of reads wrapped ?_ ?_).mono ?_
  · intro before after value run small
    exact Nat.lt_of_le_of_lt (leads_of_ok run).length_le small
  · intro value middle read right middle_eq follows
    have twin_of : State.Twin read middle.rest right middle (middle.past (read ++ right) []) :=
      ⟨middle_eq, rfl, rfl, rfl⟩
    obtain rfl := twin_of.eq_nil
    exact follows
  · rintro surroundings read (holds | ⟨_, _, _, _, _, _, impossible⟩)
    · exact holds
    · exact impossible.elim

theorem Foresees.bind_pure {parser : Parser α} {unfinished : Surroundings → List Token → Prop}
    (foresees : Foresees room tolerated lookahead parser unfinished) (wrap : α → β) :
    Foresees room tolerated lookahead (parser >>= fun value => pure (wrap value)) unfinished := by
  rw [← map_eq_pure_bind]
  exact foresees.map wrap

/-- What is read after a look at the depths. -/
theorem Foresees.get_bind {next : State → Parser α}
    {unfinished : State → Surroundings → List Token → Prop}
    (foresees : ∀ state, Foresees room tolerated lookahead (next state) (unfinished state))
    (same : ∀ {state twin : State}, twin.loopDepth = state.loopDepth →
      twin.functionDepth = state.functionDepth → next twin = next state) :
    Foresees room tolerated lookahead (get >>= next) fun surroundings read =>
      ∃ state : State, state.surroundings = surroundings ∧
        unfinished state surroundings read where
  leads before := (foresees before).leads before
  located {before _ _} small run := (foresees before).located small run
  carries := by
    intro before twin read right small twin_of follows
    obtain ⟨added, adds, run⟩ := (foresees before).carries small twin_of follows
    have next_eq := congrFun (same twin_of.loopDepth_eq twin_of.functionDepth_eq) twin
    exact ⟨added, adds, next_eq.trans run⟩
  stalls := by
    intro before error small quiet fault
    have run_eq : (get >>= next) before = next before before := rfl
    obtain ⟨read, left, stalls, holds⟩ :=
      (foresees before).stalls small quiet (fault.congr run_eq)
    refine ⟨read, left, ⟨stalls.rest_eq, stalls.token_eq, ?_⟩, before, rfl, holds⟩
    intro twin right twin_of twin_quiet same_next
    have next_eq := congrFun (same twin_of.loopDepth_eq twin_of.functionDepth_eq) twin
    exact (stalls.again twin_of twin_quiet same_next).congr next_eq.symm

section Repetition

/-- A repetition is unfinished where one of its steps is, after the steps before that. -/
theorem foresees_loop {step : α → Parser (Option α)}
    {stepped : α → Surroundings → List Token → List Token → Option α → Prop}
    {stalled chained : α → Surroundings → List Token → Prop} (advances : Advances step)
    (step_reads : ∀ value, Reads tolerated (step value) (stepped value))
    (steps : ∀ value, Foresees room tolerated .anything (step value) (stalled value))
    (last : ∀ value surroundings read,
      stalled value surroundings read → chained value surroundings read)
    (more : ∀ value next surroundings left right rest,
      stepped value surroundings left (right ++ rest) (some next) →
      chained next surroundings right → chained value surroundings (left ++ right))
    (value : α) : Foresees room tolerated .anything (loop step value) (chained value) := by
  induction room generalizing value with
  | zero => exact .zero fun before => leads_iterate step_reads before.rest value before
  | succ room ih =>
      rw [advances.loop_eq value]
      have later (found : Option α) : Foresees (if found.isSome then room else room + 1) tolerated
          .anything (loopAfter step value found)
          fun surroundings read => ∃ next, found = some next ∧ chained next surroundings read := by
        cases found with
        | none => exact (foresees_pure value).mono fun _ _ impossible => impossible.elim
        | some next =>
            exact (ih (fun value => (steps value).fewer (Nat.le_succ room)) next).mono
              fun _ _ holds => ⟨next, rfl, holds⟩
      refine ((steps value).bind_of (step_reads value).described_of_ok later ?_ ?_).mono ?_
      · rintro before after (_ | next) run small
        · exact Nat.lt_of_le_of_lt ((step_reads value).leads_of_ok run).length_le small
        · exact Nat.lt_of_lt_of_le (advances.progress run) (Nat.le_of_lt_succ small)
      · intro found middle read right middle_eq follows
        rw [middle_eq]
        exact head?_append_eq (Follows.head?_eq follows) read
      · rintro surroundings read (holds | ⟨found, left, right, rest, rfl, holds, next, rfl, later⟩)
        · exact last value surroundings read holds
        · exact more value next surroundings left right rest holds later

/-- A sequence of items is unfinished where one of them is, after those before. -/
theorem foresees_many {item : Parser (Option α)}
    {described : Surroundings → List Token → List Token → Option α → Prop}
    {stalled chained : Surroundings → List Token → Prop} (advances : ItemAdvances item)
    (item_reads : Reads tolerated item described)
    (items : Foresees room tolerated .anything item stalled)
    (last : ∀ surroundings read, stalled surroundings read → chained surroundings read)
    (more : ∀ value surroundings left right rest,
      described surroundings left (right ++ rest) (some value) →
      chained surroundings right → chained surroundings (left ++ right)) :
    Foresees room tolerated .anything (many item) chained := by
  rw [many_eq_loop, ← map_eq_pure_bind]
  refine Foresees.map ?_ List.reverse
  have steps (earlier : List α) :
      Foresees room tolerated .anything (collect item earlier) stalled :=
    items.bind_pure fun found => found.map (· :: earlier)
  refine foresees_loop advances.advances_collect
    (fun earlier => item_reads.bind fun found => reads_pure _) steps (fun _ => last) ?_ []
  · rintro earlier next surroundings left right rest
      ⟨found, first, nothing, rfl, holds, rfl, next_eq⟩ later
    cases found with
    | none => cases next_eq
    | some value =>
        exact more value surroundings _ right rest (by simpa using holds) (by simpa using later)

end Repetition

section Completion

variable {complete inner : List Token → Prop} {read : List Token}

/-- Tokens that could go on to be complete, with a next one that is no `else`. -/
def Unfinished (complete : List Token → Prop) (read : List Token) : Prop :=
  ∃ next later, next.kind ≠ .elseWord ∧ complete (read ++ next :: later)

theorem Unfinished.within (unfinished : Unfinished inner read) (before : List Token)
    (completes : ∀ tokens, inner tokens → ∃ after, complete (before ++ (tokens ++ after))) :
    Unfinished complete (before ++ read) := by
  rcases unfinished with ⟨next, later, other, holds⟩
  obtain ⟨after, whole⟩ := completes _ holds
  exact ⟨next, later ++ after, other, by simpa using whole⟩

theorem Unfinished.followed (unfinished : Unfinished inner read)
    (completes : ∀ tokens, inner tokens → ∃ after, complete (tokens ++ after)) :
    Unfinished complete read :=
  unfinished.within [] completes

theorem Unfinished.mono (unfinished : Unfinished inner read)
    (completes : ∀ tokens, inner tokens → complete tokens) : Unfinished complete read :=
  unfinished.followed fun tokens holds => ⟨[], by simpa using completes tokens holds⟩

/-- Some token of a kind. -/
def sample (kind : Token.Kind) : Token.OfKind kind :=
  ⟨⟨kind, kind.spelling?.getD "x", none, 1⟩, rfl⟩

theorem unfinished_before (kind : Token.Kind) (other : kind ≠ .elseWord) (later : List Token)
    (holds : complete (read ++ (sample kind).token :: later)) : Unfinished complete read :=
  ⟨(sample kind).token, later, other, holds⟩

end Completion

section Lists

variable {item : Parser α} {excess : SyntaxError.Cause} {piece : List Token → Prop}
  {unfinished : Surroundings → List Token → Prop}

theorem foresees_member (allowed : tolerated excess)
    (items : Foresees room tolerated .anything item unfinished) (earlier : List α) :
    Foresees room tolerated .anything (member excess item earlier) unfinished := by
  have added : Foresees room tolerated .anything (item >>= fun value => pure (value :: earlier))
      unfinished := items.bind_pure _
  unfold member
  split
  · apply ((foresees_reportHere allowed).bind (reads_reportHere excess) fun _ => added).mono
    rintro surroundings read (impossible | ⟨_, _, _, _, rfl, ⟨rfl, _⟩, holds⟩)
    · exact impossible.elim
    · exact holds
  · exact added

/-- Pieces with a comma before each one. -/
def FurtherPieces (piece : List Token → Prop) (tokens : List Token) : Prop :=
  ∃ pieces, (∀ first, Separated (first :: pieces) (first ++ tokens)) ∧
    ∀ part ∈ pieces, piece part

theorem furtherPieces_nil : FurtherPieces piece [] :=
  ⟨[], fun first => by simpa using .single, by simp⟩

theorem FurtherPieces.cons {part tokens : List Token} (comma : Token.OfKind .comma)
    (holds : piece part) (others : FurtherPieces piece tokens) :
    FurtherPieces piece (comma.token :: (part ++ tokens)) := by
  rcases others with ⟨pieces, separated, hold⟩
  exact ⟨part :: pieces, fun first => .comma (separated part),
    List.forall_mem_cons.mpr ⟨holds, hold⟩⟩

/-- Pieces with one comma between each two of them. -/
def SeparatedPieces (piece : List Token → Prop) (tokens : List Token) : Prop :=
  ∃ pieces, Separated pieces tokens ∧ ∀ part ∈ pieces, piece part

theorem FurtherPieces.separated {part tokens : List Token} (holds : piece part)
    (others : FurtherPieces piece tokens) : SeparatedPieces piece (part ++ tokens) := by
  rcases others with ⟨pieces, separated, hold⟩
  exact ⟨part :: pieces, separated part, List.forall_mem_cons.mpr ⟨holds, hold⟩⟩

/-- Reads a comma and one more item of a list. -/
def furtherMember (excess : SyntaxError.Cause) (item : Parser α) (earlier : List α) :
    Parser (Option (List α)) := do
  match ← acceptKind .comma with
  | some _ => do pure (some (← member excess item earlier))
  | none => pure none

theorem separated_eq (excess : SyntaxError.Cause) (item : Parser α) :
    separated excess item = (member excess item [] >>= fun first =>
      List.reverse <$> loop (furtherMember excess item) first) := by
  simp only [map_eq_pure_bind]
  rfl

variable {described : Surroundings → List Token → List Token → α → Prop}

theorem reads_furtherMember (item_reads : Reads tolerated item described) (earlier : List α) :
    Reads tolerated (furtherMember excess item earlier) fun surroundings tokens _ found =>
      ∀ values, found = some values → ∃ (comma : Token.OfKind .comma) (others rest : List Token)
        (value : α), tokens = comma.token :: others ∧ described surroundings others rest value := by
  have step_reads : Reads tolerated (furtherMember excess item earlier) _ :=
    reads_acceptKind_bind
      (fun _ => (reads_member item_reads earlier).bind fun values => reads_pure (some values))
      (reads_pure none)
  apply step_reads.mono
  rintro surroundings tokens rest found
    (⟨comma, others, rfl, values, part, nothing, rfl, ⟨value, rfl, holds, _⟩, rfl, rfl⟩ |
      ⟨_, rfl, rfl⟩) values found_eq
  · exact ⟨comma, part ++ [], _, value, rfl, by simpa using holds⟩
  · cases found_eq

theorem advances_furtherMember (item_reads : Reads tolerated item described) :
    Advances (furtherMember excess item) :=
  advances_accept (fun _ => rfl) fun earlier _ =>
    ((reads_member item_reads earlier).bind fun values => reads_pure (some values)).leads

/-- Reads the parenthesis that closes a list. -/
def closing (place : SyntaxError.Place) (items : List α) :
    Parser (List α × Token.OfKind .rightParen) :=
  (fun paren => (items, paren)) <$> expectSymbol .rightParen place

theorem eats_closing (place : SyntaxError.Place) (items : List α) : Eats (closing place items) :=
  (eats_expect .rightParen _).map _

/-- Pieces with one comma between each two of them, and a closing parenthesis. -/
def ClosedPieces (piece : List Token → Prop) (tokens : List Token) : Prop :=
  ∃ (inner : List Token) (paren : Token.OfKind .rightParen),
    tokens = inner ++ [paren.token] ∧ SeparatedPieces piece inner

variable (allowed : tolerated excess)
  (item_reads : Reads tolerated item fun _ tokens _ _ => piece tokens)
  (items : Foresees room tolerated .anything item fun _ read => Unfinished piece read)

include allowed item_reads items

theorem foresees_furtherMember (earlier : List α) :
    Foresees room tolerated .anything (furtherMember excess item earlier) fun _ read =>
      ∃ (comma : Token.OfKind .comma) (others : List Token), read = comma.token :: others ∧
        Unfinished piece others := by
  cases room with
  | zero => exact .zero (reads_furtherMember item_reads earlier).leads
  | succ room =>
      have taken : Foresees room tolerated .anything
          (member excess item earlier >>= fun values => pure (some values))
          fun _ read => Unfinished piece read :=
        ((foresees_member allowed items earlier).fewer (Nat.le_succ room)).bind_pure some
      have step : Foresees (room + 1) tolerated .anything (furtherMember excess item earlier) _ :=
        .acceptKind_bind (fun _ => taken) (foresees_pure none) refuses_anything
      apply step.mono
      rintro surroundings read (holds | impossible)
      · exact holds
      · exact impossible.elim

theorem foresees_separated :
    Foresees room tolerated .anything (separated excess item) fun _ read =>
      Unfinished (SeparatedPieces piece) read := by
  have looped (first : List α) :
      Foresees room tolerated .anything (List.reverse <$> loop (furtherMember excess item) first)
        fun _ read => Unfinished (FurtherPieces piece) read := by
    refine Foresees.map ?_ List.reverse
    apply foresees_loop (advances_furtherMember item_reads) (reads_furtherMember item_reads)
      (foresees_furtherMember allowed item_reads items)
    · rintro earlier surroundings read ⟨comma, others, rfl, holds⟩
      exact holds.within [comma.token] fun tokens part =>
        ⟨[], by simpa using FurtherPieces.cons comma part furtherPieces_nil⟩
    · rintro earlier next surroundings left right rest holds later
      obtain ⟨comma, part, _, _, rfl, part_holds⟩ := holds next rfl
      refine later.within (comma.token :: part) fun tokens further => ⟨[], ?_⟩
      simpa using further.cons comma part_holds
  rw [separated_eq]
  apply ((foresees_member allowed items []).bind (reads_member item_reads []) looped).mono
  rintro surroundings read (holds | ⟨values, left, right, rest, rfl, ⟨value, rfl, holds, _⟩, later⟩)
  · exact holds.mono fun tokens part => ⟨[tokens], .single, by simpa using part⟩
  · refine later.within left fun tokens further => ⟨[], ?_⟩
    simpa using FurtherPieces.separated holds further

omit allowed item_reads items in
theorem closedList_eq (excess : SyntaxError.Cause) (place : SyntaxError.Place) (item : Parser α) :
    closedList excess place item = (check .rightParen >>= fun empty =>
      if empty then closing place [] else separated excess item >>= closing place) := by
  unfold closing
  simp only [map_eq_pure_bind]
  rfl

/-- A list in parentheses is unfinished without the one that closes it. -/
theorem foresees_closedList (place : SyntaxError.Place) :
    Foresees room tolerated lookahead (closedList excess place item) fun _ read =>
      Unfinished (ClosedPieces piece) read := by
  have separated_reads := @reads_separated _ _ _ _ excess item_reads
  have close (values : List α) : Foresees room tolerated lookahead (closing place values)
      fun _ read => read = [] :=
    (foresees_expectSymbol .rightParen place).map _
  have branches (empty : Bool) : Foresees room tolerated lookahead
      (if empty then closing place [] else separated excess item >>= closing place)
      fun _ read => Unfinished (ClosedPieces piece) read := by
    cases empty with
    | true =>
        apply (close []).mono
        rintro surroundings read rfl
        exact unfinished_before .rightParen (by decide) []
          ⟨[], sample .rightParen, rfl, [], .empty, by simp⟩
    | false =>
        apply ((foresees_separated allowed item_reads items).bind_eats separated_reads close
          (eats_closing place)).mono
        rintro surroundings read
          (holds | ⟨values, left, right, rest, rfl, ⟨pieces, separated, _, _, hold, _⟩, rfl⟩)
        · exact holds.followed fun tokens pieces =>
            ⟨[(sample .rightParen).token], tokens, sample .rightParen, rfl, pieces⟩
        · refine unfinished_before .rightParen (by decide) []
            ⟨left, sample .rightParen, by simp, _, separated, ?_⟩
          rintro part part_mem
          obtain ⟨piece, piece_mem, rfl⟩ := List.mem_map.mp part_mem
          obtain ⟨_, holds⟩ := hold piece piece_mem
          exact holds
  have branches_eat (empty : Bool) :
      Eats (if empty then closing place [] else separated excess item >>= closing place) := by
    cases empty with
    | true => exact eats_closing place []
    | false => exact .of_later separated_reads.leads (eats_closing place)
  rw [closedList_eq]
  apply ((foresees_check .rightParen).bind_eats (reads_check .rightParen) branches
    branches_eat).mono
  rintro surroundings read (impossible | ⟨_, _, _, _, rfl, ⟨rfl, _⟩, holds⟩)
  · exact impossible.elim
  · exact holds

end Lists

section Nesting

variable {parser : Parser α} {unfinished : Surroundings → List Token → Prop}

/-- A state in as many loops and functions as given. -/
def State.within (state : State) (loops functions : Nat) : State :=
  { state with loopDepth := loops, functionDepth := functions }

/-- Reads in loops and functions of given depths, and returns to those before. -/
def surrounded (loops functions : Nat) (body : Parser α) : Parser α := fun state =>
  match body (state.within loops functions) with
  | .ok value after => .ok value (after.within state.loopDepth state.functionDepth)
  | .error error after => .error error (after.within state.loopDepth state.functionDepth)

theorem inLoop_eq (leads : ∀ before : State, before.Leads (stop parser before)) :
    inLoop parser = (get >>= fun state =>
      surrounded (state.loopDepth + 1) state.functionDepth parser) := by
  funext before
  change inLoop parser before = surrounded (before.loopDepth + 1) before.functionDepth parser before
  have inner := leads { before with loopDepth := before.loopDepth + 1 }
  cases run : parser { before with loopDepth := before.loopDepth + 1 } with
  | ok value after =>
      rw [stop_of_ok run] at inner
      simp [inLoop, surrounded, State.within, run, inner.loopDepth_eq, inner.functionDepth_eq]
  | error error after =>
      rw [stop_of_error run] at inner
      simp [inLoop, surrounded, State.within, run, inner.loopDepth_eq, inner.functionDepth_eq]

theorem inFunction_eq (leads : ∀ before : State, before.Leads (stop parser before)) :
    inFunction parser = (get >>= fun state => surrounded 0 (state.functionDepth + 1) parser) := by
  funext before
  change inFunction parser before = surrounded 0 (before.functionDepth + 1) parser before
  have inner := leads { before with loopDepth := 0, functionDepth := before.functionDepth + 1 }
  cases run : parser
      { before with loopDepth := 0, functionDepth := before.functionDepth + 1 } with
  | ok value after =>
      rw [stop_of_ok run] at inner
      simp [inFunction, surrounded, State.within, run, inner.functionDepth_eq]
  | error error after =>
      rw [stop_of_error run] at inner
      simp [inFunction, surrounded, State.within, run, inner.functionDepth_eq]

theorem stop_surrounded (loops functions : Nat) (before : State) :
    stop (surrounded loops functions parser) before =
      (stop parser (before.within loops functions)).within before.loopDepth
        before.functionDepth := by
  cases run : parser (before.within loops functions) <;> simp only [stop, surrounded, run]

theorem firstFault_surrounded_iff {loops functions : Nat} {before : State} {error : SyntaxError} :
    FirstFault tolerated (surrounded loops functions parser) before error ↔
      FirstFault tolerated parser (before.within loops functions) error := by
  have errors_eq : (stop (surrounded loops functions parser) before).errors =
      (stop parser (before.within loops functions)).errors := by
    rw [stop_surrounded]
    rfl
  constructor
  · rintro (⟨run, quiet⟩ | ⟨reported_eq, quiet, fault⟩)
    · cases inner : parser (before.within loops functions) with
      | ok value after => simp [surrounded, inner] at run
      | error other after =>
          simp only [surrounded, inner, EStateM.Result.error.injEq] at run
          rcases run with ⟨rfl, rfl⟩
          exact .raised inner quiet
    · exact .reported (errors_eq ▸ reported_eq) quiet fault
  · rintro (@⟨after, run, quiet⟩ | ⟨reported_eq, quiet, fault⟩)
    · have outer : surrounded loops functions parser before =
          .error error (after.within before.loopDepth before.functionDepth) := by
        simp only [surrounded, run]
      exact .raised outer quiet
    · exact .reported (errors_eq.trans reported_eq) quiet fault

theorem Foresees.surrounded (foresees : Foresees room tolerated lookahead parser unfinished)
    (loops functions : Nat) :
    Foresees room tolerated lookahead (surrounded loops functions parser) fun _ read =>
      unfinished ⟨decide (0 < loops), decide (0 < functions)⟩ read where
  leads := by
    intro before
    have inner := foresees.leads (before.within loops functions)
    rw [stop_surrounded]
    exact ⟨inner.rest_suffix, rfl, rfl, inner.errors_prefix⟩
  located := by
    intro before after error small run
    cases inner : parser (before.within loops functions) with
    | ok value after => simp [Parser.surrounded, inner] at run
    | error other after =>
        simp only [Parser.surrounded, inner, EStateM.Result.error.injEq] at run
        rcases run with ⟨rfl, rfl⟩
        have inner_small : (before.within loops functions).rest.length < room := small
        have located := foresees.located inner_small inner
        exact located
  carries := by
    intro before twin read right small twin_of follows
    rw [stop_surrounded] at twin_of ⊢
    have inner_small : (before.within loops functions).rest.length < room := small
    have inner_twin : State.Twin read (stop parser (before.within loops functions)).rest right
        (before.within loops functions) (twin.within loops functions) :=
      ⟨twin_of.rest_eq, twin_of.twin_rest_eq, rfl, rfl⟩
    have inner_follows : Follows lookahead (parser (before.within loops functions)) right := by
      rw [Parser.surrounded] at follows
      cases run : parser (before.within loops functions) <;>
        rw [run] at follows <;> exact follows
    obtain ⟨added, adds, run⟩ := foresees.carries inner_small inner_twin inner_follows
    refine ⟨added, ⟨adds.errors_eq, adds.located⟩, ?_⟩
    rw [Parser.surrounded, Parser.surrounded, run]
    cases parser (before.within loops functions) <;> rfl
  stalls := by
    intro before error small quiet fault
    have inner_small : (before.within loops functions).rest.length < room := small
    obtain ⟨read, left, stalls, holds⟩ :=
      foresees.stalls inner_small quiet (firstFault_surrounded_iff.mp fault)
    refine ⟨read, left, ⟨stalls.rest_eq, stalls.token_eq, ?_⟩, holds⟩
    intro twin right twin_of twin_quiet same
    have inner_twin : State.Twin read left right (before.within loops functions)
        (twin.within loops functions) :=
      ⟨twin_of.rest_eq, twin_of.twin_rest_eq, rfl, rfl⟩
    exact firstFault_surrounded_iff.mpr (stalls.again inner_twin twin_quiet same)

theorem Foresees.inLoop (foresees : Foresees room tolerated lookahead parser unfinished) :
    Foresees room tolerated lookahead (inLoop parser) fun surroundings read =>
      unfinished ⟨true, surroundings.inFunction⟩ read := by
  rw [inLoop_eq foresees.leads]
  apply (Foresees.get_bind (fun state =>
    foresees.surrounded (state.loopDepth + 1) state.functionDepth) ?_).mono
  · rintro surroundings read ⟨state, rfl, holds⟩
    simpa [State.surroundings] using holds
  · rintro state twin loops functions
    rw [loops, functions]

theorem Foresees.inFunction (foresees : Foresees room tolerated lookahead parser unfinished) :
    Foresees room tolerated lookahead (inFunction parser) fun _ read =>
      unfinished ⟨false, true⟩ read := by
  rw [inFunction_eq foresees.leads]
  apply (Foresees.get_bind (fun state => foresees.surrounded 0 (state.functionDepth + 1)) ?_).mono
  · rintro surroundings read ⟨state, rfl, holds⟩
    simpa using holds
  · rintro state twin loops functions
    rw [functions]

end Nesting

section Recovery

variable {parser : Parser α} {unfinished : Surroundings → List Token → Prop}

theorem recovering_of_ok {before after : State} {value : α}
    (run : parser before = .ok value after) :
    recovering parser before = .ok (some value) after := by
  simp only [recovering, run]

theorem recovering_of_error {before after : State} {error : SyntaxError}
    (run : parser before = .error error after) :
    recovering parser before = .ok none (after.past (resume after.rest) [error]) := by
  simp only [recovering, run, State.past]

/-- Recovery goes on at the same place as long as the next token there is the same. -/
theorem resume_append {left right : List Token} (same : right.head? = left.head?)
    {skipped : List Token} (resumed : resume (skipped ++ left) = left) :
    resume (skipped ++ right) = right := by
  induction skipped with
  | nil =>
      cases left with
      | nil =>
          rw [List.head?_eq_none_iff.mp same]
          rfl
      | cons token left =>
          have shorter := length_resume_lt (List.cons_ne_nil token left)
          rw [List.nil_append] at resumed
          rw [resumed] at shorter
          exact absurd shorter (Nat.lt_irrefl _)
  | cons token others ih =>
      have whole : others ++ left = left → others = [] := List.append_left_eq_self.mp
      rw [List.cons_append, resume] at resumed ⊢
      rw [head?_append_eq same others]
      split at resumed
      · rw [if_pos ‹_›, whole resumed, List.nil_append]
      · rw [if_neg ‹_›]
        split at resumed
        · rw [if_pos ‹_›, whole resumed, List.nil_append]
        · rw [if_neg ‹_›]
          exact ih resumed

/-- Recovery reports the failure, so the first fault stays the same. -/
theorem firstFault_recovering_iff {before : State} {error : SyntaxError} :
    FirstFault tolerated (recovering parser) before error ↔
      FirstFault tolerated parser before error ∧ ¬tolerated error.cause := by
  cases run : parser before with
  | ok value after =>
      have recovered := recovering_of_ok run
      constructor
      · rintro (⟨failed, _⟩ | ⟨errors_eq, quiet, fault⟩)
        · rw [recovered] at failed
          cases failed
        · rw [stop_of_ok recovered, ← stop_of_ok run] at errors_eq
          exact ⟨.reported errors_eq quiet fault, fault⟩
      · rintro ⟨⟨failed, _⟩ | ⟨errors_eq, quiet, fault⟩, _⟩
        · rw [run] at failed
          cases failed
        · rw [stop_of_ok run, ← stop_of_ok recovered] at errors_eq
          exact .reported errors_eq quiet fault
  | error other after =>
      have recovered := recovering_of_error run
      have errors_eq : (stop (recovering parser) before).errors = after.errors ++ [other] := by
        rw [stop_of_ok recovered]
        rfl
      constructor
      · rintro (⟨failed, _⟩ | ⟨reported_eq, quiet, fault⟩)
        · rw [recovered] at failed
          cases failed
        · refine ⟨?_, fault⟩
          rw [errors_eq] at reported_eq
          have errors_prefix := List.prefix_append after.errors [other]
          rw [reported_eq] at errors_prefix
          rcases exists_first_of_prefix errors_prefix quiet with all | ⟨others, after_eq⟩
          · have error_mem : error ∈ after.errors ++ [other] := reported_eq ▸ by simp
            rcases List.mem_append.mp error_mem with error_mem | error_mem
            · exact absurd (all error error_mem) fault
            · rw [List.mem_singleton.mp error_mem]
              exact .raised run all
          · rw [← stop_of_error run] at after_eq
            exact .reported after_eq quiet fault
      · rintro ⟨⟨failed, quiet⟩ | ⟨reported_eq, quiet, _⟩, fault⟩
        · rw [run] at failed
          cases failed
          exact .reported errors_eq quiet fault
        · rw [stop_of_error run] at reported_eq
          rw [reported_eq, List.append_assoc, List.cons_append] at errors_eq
          exact .reported errors_eq quiet fault

/-- Recovery reports the failure where the run stopped. -/
theorem State.Adds.resumed {before after : State} {added : List SyntaxError}
    {error : SyntaxError} (adds : before.Adds after added)
    (located : error.token = after.rest.head?) :
    before.Adds (after.past (resume after.rest) [error]) (added ++ [error]) where
  errors_eq := by rw [State.past, adds.errors_eq, List.append_assoc]
  located := by
    intro other other_mem at_end
    suffices ended : after.rest = [] by
      rw [State.past, ended]
      rfl
    rcases List.mem_append.mp other_mem with other_mem | other_mem
    · exact adds.located other other_mem at_end
    · rw [List.mem_singleton.mp other_mem, located] at at_end
      exact List.head?_eq_none_iff.mp at_end

theorem Foresees.recovering (foresees : Foresees room tolerated lookahead parser unfinished) :
    Foresees room tolerated .anything (recovering parser) unfinished where
  leads := by
    intro before
    have inner := foresees.leads before
    cases run : parser before with
    | ok value after => rwa [stop_of_ok (recovering_of_ok run), ← stop_of_ok run]
    | error error after =>
        rw [stop_of_error run] at inner
        rw [stop_of_ok (recovering_of_error run)]
        exact inner.trans ⟨resume_suffix _, rfl, rfl, List.prefix_append _ _⟩
  located := by
    intro before after error small run
    cases inner : parser before with
    | ok value middle =>
        rw [recovering_of_ok inner] at run
        cases run
    | error other middle =>
        rw [recovering_of_error inner] at run
        cases run
  carries := by
    intro before twin read right small twin_of follows
    cases run : parser before with
    | ok value after =>
        have recovered := recovering_of_ok run
        rw [stop_of_ok recovered, ← List.append_nil read] at twin_of
        rw [recovered] at follows
        obtain ⟨added, adds, twin_run, _⟩ := foresees.carries_ok small run twin_of rfl
          (lookahead.allows_of_head?_eq follows)
        refine ⟨added, by rwa [stop_of_ok recovered], ?_⟩
        rw [recovering_of_ok twin_run, recovered]
        rfl
    | error error after =>
        have recovered := recovering_of_error run
        rw [stop_of_ok recovered] at twin_of ⊢
        rw [recovered] at follows ⊢
        have same : right.head? = (resume after.rest).head? := follows
        have leads : before.Leads after := stop_of_error run ▸ foresees.leads before
        obtain ⟨first, skipped, rfl, after_eq⟩ :=
          twin_of.exists_parts leads.rest_suffix (resume_suffix after.rest)
        have inner_twin : State.Twin first after.rest (skipped ++ right) before twin := by
          rw [after_eq]
          exact twin_of.part
        have inner_same : (skipped ++ right).head? = after.rest.head? := by
          rw [after_eq]
          exact head?_append_eq same skipped
        obtain ⟨added, adds, twin_run⟩ := foresees.carries_error small run inner_twin inner_same
        refine ⟨added ++ [error], adds.resumed (foresees.located small run), ?_⟩
        have resumed := resume_append same (congrArg resume after_eq.symm)
        rw [recovering_of_error twin_run, State.past_past]
        change EStateM.Result.ok none
          (twin.past (resume (skipped ++ right)) (added ++ [error])) = _
        rw [resumed]
        rfl
  stalls := by
    intro before error small quiet fault
    obtain ⟨inner_fault, untolerated⟩ := firstFault_recovering_iff.mp fault
    obtain ⟨read, left, stalls, holds⟩ := foresees.stalls small quiet inner_fault
    refine ⟨read, left, ⟨stalls.rest_eq, stalls.token_eq, ?_⟩, holds⟩
    intro twin right twin_of twin_quiet same
    exact firstFault_recovering_iff.mpr ⟨stalls.again twin_of twin_quiet same, untolerated⟩

end Recovery

end Scriptlet.Parser
