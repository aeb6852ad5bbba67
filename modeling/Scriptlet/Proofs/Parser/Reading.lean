import Scriptlet.Proofs.Grammar.Statement

/-!
# What a parser reads

`Reads` describes a parser by the tokens that it takes from the front of what is left and the value
that it makes of them. Every parser that is described so restores the depth counters, takes back no
error and puts no token back, also when it fails. The description itself is about runs that give a
value and report only tolerated errors.

The rules below follow the ways in which parsers are put together, so each parser is described by
the descriptions of its parts.
-/

namespace Scriptlet.Parser

open Grammar

variable {α β : Type} {tolerated : Tolerance}

/-- What the next statement stands in. -/
def State.surroundings (state : State) : Surroundings :=
  ⟨decide (0 < state.loopDepth), decide (0 < state.functionDepth)⟩

/-- How reading changes a state: tokens leave at the front, errors are added at the end. -/
structure State.Leads (before after : State) : Prop where
  rest_suffix : after.rest <:+ before.rest
  loopDepth_eq : after.loopDepth = before.loopDepth
  functionDepth_eq : after.functionDepth = before.functionDepth
  errors_prefix : before.errors <+: after.errors

namespace State.Leads

theorem refl (state : State) : state.Leads state :=
  ⟨List.suffix_rfl, rfl, rfl, List.prefix_rfl⟩

theorem trans {before middle after : State} (first : before.Leads middle)
    (second : middle.Leads after) : before.Leads after :=
  ⟨second.rest_suffix.trans first.rest_suffix,
    second.loopDepth_eq.trans first.loopDepth_eq,
    second.functionDepth_eq.trans first.functionDepth_eq,
    first.errors_prefix.trans second.errors_prefix⟩

theorem surroundings_eq {before after : State} (leads : before.Leads after) :
    after.surroundings = before.surroundings := by
  simp [surroundings, leads.loopDepth_eq, leads.functionDepth_eq]

theorem length_le {before after : State} (leads : before.Leads after) :
    after.rest.length ≤ before.rest.length :=
  leads.rest_suffix.length_le

theorem tolerated_of_after {before after : State} (leads : before.Leads after)
    (all : ∀ error ∈ after.errors, tolerated error.cause) :
    ∀ error ∈ before.errors, tolerated error.cause := by
  intro error error_mem
  exact all error (leads.errors_prefix.subset error_mem)

end State.Leads

/-- The state in which a parser stops. -/
def stop (parser : Parser α) (before : State) : State :=
  match parser before with
  | .ok _ after => after
  | .error _ after => after

theorem stop_of_ok {parser : Parser α} {before after : State} {value : α}
    (run : parser before = .ok value after) : stop parser before = after := by
  simp [stop, run]

theorem stop_of_error {parser : Parser α} {before after : State} {error : SyntaxError}
    (run : parser before = .error error after) : stop parser before = after := by
  simp [stop, run]

theorem bind_of_ok {parser : Parser α} {next : α → Parser β} {before middle : State} {value : α}
    (run : parser before = .ok value middle) :
    (parser >>= next) before = next value middle := by
  change EStateM.bind parser next before = _
  simp [EStateM.bind, run]

theorem bind_of_error {parser : Parser α} {next : α → Parser β} {before after : State}
    {error : SyntaxError} (run : parser before = .error error after) :
    (parser >>= next) before = .error error after := by
  change EStateM.bind parser next before = _
  simp [EStateM.bind, run]

theorem stop_bind_of_ok {parser : Parser α} {next : α → Parser β} {before middle : State}
    {value : α} (run : parser before = .ok value middle) :
    stop (parser >>= next) before = stop (next value) middle := by
  rw [stop, bind_of_ok run, stop]

theorem leads_bind {parser : Parser α} {next : α → Parser β}
    (first : ∀ before : State, before.Leads (stop parser before))
    (second : ∀ value (before : State), before.Leads (stop (next value) before))
    (before : State) : before.Leads (stop (parser >>= next) before) := by
  have first_leads := first before
  cases run : parser before with
  | ok value middle =>
      have later := second value middle
      rw [stop_of_ok run] at first_leads
      simp only [stop, bind_of_ok run] at later ⊢
      exact first_leads.trans later
  | error error after =>
      rw [stop_of_error run] at first_leads
      simpa only [stop, bind_of_error run] using first_leads

/-- A parser changes the state as reading does and fails only with faults that end a declaration.
A run that gives a value and reports only tolerated errors is as described: in its surroundings,
the tokens that are read, followed by those that are left, stand for the value. -/
structure Reads (tolerated : Tolerance) (parser : Parser α)
    (described : Surroundings → List Token → List Token → α → Prop) : Prop where
  leads : ∀ before : State, before.Leads (stop parser before)
  fatal_of_error : ∀ {before after : State} {error : SyntaxError},
    parser before = .error error after → error.cause.isFatal = true
  described_of_ok : ∀ {before after : State} {value : α}, parser before = .ok value after →
    (∀ error ∈ after.errors, tolerated error.cause) →
    ∃ tokens, before.rest = tokens ++ after.rest ∧
      described before.surroundings tokens after.rest value

namespace Reads

variable {parser : Parser α} {described : Surroundings → List Token → List Token → α → Prop}

theorem leads_of_ok (reads : Reads tolerated parser described) {before after : State} {value : α}
    (run : parser before = .ok value after) : before.Leads after :=
  stop_of_ok run ▸ reads.leads before

theorem leads_of_error (reads : Reads tolerated parser described) {before after : State}
    {error : SyntaxError} (run : parser before = .error error after) : before.Leads after :=
  stop_of_error run ▸ reads.leads before

theorem mono {weaker : Surroundings → List Token → List Token → α → Prop}
    (reads : Reads tolerated parser described)
    (weaken : ∀ surroundings tokens rest value,
      described surroundings tokens rest value → weaker surroundings tokens rest value) :
    Reads tolerated parser weaker := by
  refine ⟨reads.leads, reads.fatal_of_error, ?_⟩
  intro before after value run all
  rcases reads.described_of_ok run all with ⟨tokens, rest_eq, holds⟩
  exact ⟨tokens, rest_eq, weaken _ _ _ _ holds⟩

theorem bind {next : α → Parser β}
    {then_ : α → Surroundings → List Token → List Token → β → Prop}
    (first : Reads tolerated parser described)
    (second : ∀ value, Reads tolerated (next value) (then_ value)) :
    Reads tolerated (parser >>= next) fun surroundings tokens rest result =>
      ∃ value left right, tokens = left ++ right ∧
        described surroundings left (right ++ rest) value ∧
        then_ value surroundings right rest result := by
  constructor
  · exact leads_bind first.leads fun value => (second value).leads
  · intro before after error run
    cases firstRun : parser before with
    | ok value middle =>
        rw [bind_of_ok firstRun] at run
        exact (second value).fatal_of_error run
    | error error middle =>
        rw [bind_of_error firstRun] at run
        cases run
        exact first.fatal_of_error firstRun
  · intro before after result run all
    cases firstRun : parser before with
    | ok value middle =>
        rw [bind_of_ok firstRun] at run
        have firstLeads := first.leads_of_ok firstRun
        have secondLeads := (second value).leads_of_ok run
        rcases (second value).described_of_ok run all with ⟨right, right_eq, secondHolds⟩
        rcases first.described_of_ok firstRun (secondLeads.tolerated_of_after all) with
          ⟨left, left_eq, firstHolds⟩
        rw [firstLeads.surroundings_eq] at secondHolds
        rw [right_eq] at left_eq firstHolds
        exact ⟨left ++ right, by simp [left_eq],
          value, left, right, rfl, firstHolds, secondHolds⟩
    | error error middle =>
        rw [bind_of_error firstRun] at run
        cases run

end Reads

theorem reads_pure (value : α) :
    Reads tolerated (pure value) fun _ tokens _ result => tokens = [] ∧ result = value := by
  constructor
  · intro before
    exact .refl before
  · intro before after error run
    cases run
  · intro before after result run _
    cases run
    exact ⟨[], rfl, rfl, rfl⟩

theorem Reads.map {parser : Parser α} {described : Surroundings → List Token → List Token → α → Prop}
    (reads : Reads tolerated parser described) (wrap : α → β) :
    Reads tolerated (wrap <$> parser) fun surroundings tokens rest result =>
      ∃ value, described surroundings tokens rest value ∧ result = wrap value := by
  have bound := reads.bind fun value => reads_pure (wrap value)
  rw [← map_eq_pure_bind] at bound
  apply bound.mono
  rintro surroundings tokens rest result ⟨value, left, right, rfl, holds, rfl, rfl⟩
  exact ⟨value, by simpa using holds, rfl⟩

theorem reads_fail {cause : SyntaxError.Cause} (fatal : cause.isFatal = true) :
    Reads tolerated (fail cause : Parser α) fun _ _ _ _ => False := by
  constructor
  · intro before
    exact .refl before
  · intro before after error run
    cases run
    exact fatal
  · intro before after value run
    cases run

theorem reads_report (error : SyntaxError) :
    Reads tolerated (report error) fun _ tokens _ _ => tokens = [] ∧ tolerated error.cause := by
  constructor
  · intro before
    exact ⟨List.suffix_rfl, rfl, rfl, List.prefix_append _ _⟩
  · intro before after error run
    cases run
  · intro before after value run all
    cases run
    exact ⟨[], rfl, rfl, all error (by simp)⟩

theorem reads_reportHere (cause : SyntaxError.Cause) :
    Reads tolerated (reportHere cause) fun _ tokens _ _ => tokens = [] ∧ tolerated cause := by
  constructor
  · intro before
    exact ⟨List.suffix_rfl, rfl, rfl, List.prefix_append _ _⟩
  · intro before after error run
    cases run
  · intro before after value run all
    cases run
    exact ⟨[], rfl, rfl, all ⟨cause, before.rest.head?⟩ (by simp)⟩

theorem reads_atEnd :
    Reads tolerated atEnd fun _ tokens rest result => tokens = [] ∧ result = rest.isEmpty := by
  constructor
  · intro before
    exact .refl before
  · intro before after error run
    cases run
  · intro before after value run _
    cases run
    exact ⟨[], rfl, rfl, rfl⟩

theorem reads_check (kind : Token.Kind) :
    Reads tolerated (check kind) fun _ tokens rest result =>
      tokens = [] ∧ result = rest.head?.any (·.kind = kind) := by
  constructor
  · intro before
    exact .refl before
  · intro before after error run
    cases run
  · intro before after value run _
    cases run
    exact ⟨[], rfl, rfl, rfl⟩

/-- What is read after a look at the state. -/
theorem reads_get_bind {next : State → Parser α}
    {described : State → Surroundings → List Token → List Token → α → Prop}
    (next_reads : ∀ state, Reads tolerated (next state) (described state)) :
    Reads tolerated (get >>= next) fun surroundings tokens rest value =>
      ∃ state : State, state.surroundings = surroundings ∧
        described state surroundings tokens rest value := by
  constructor
  · intro before
    exact (next_reads before).leads before
  · intro before after error run
    exact (next_reads before).fatal_of_error run
  · intro before after value run all
    rcases (next_reads before).described_of_ok run all with ⟨tokens, rest_eq, holds⟩
    exact ⟨tokens, rest_eq, before, rfl, holds⟩

theorem accept_nil {classify : Token → Option α} {before : State} (rest_eq : before.rest = []) :
    accept classify before = .ok none before := by
  simp [accept, rest_eq]

theorem accept_some {classify : Token → Option α} {before : State} {token : Token}
    {rest : List Token} {value : α} (rest_eq : before.rest = token :: rest)
    (classified : classify token = some value) :
    accept classify before = .ok (some value) { before with rest } := by
  simp [accept, rest_eq, classified]

theorem accept_none {classify : Token → Option α} {before : State}
    (unclassified : ∀ token ∈ before.rest.head?, classify token = none) :
    accept classify before = .ok none before := by
  cases rest_eq : before.rest with
  | nil => exact accept_nil rest_eq
  | cons token rest =>
      have refused := unclassified token (by simp [rest_eq])
      simp [accept, rest_eq, refused]

/-- Accepting a token either takes it or leaves the state as it is. -/
theorem accept_cases (classify : Token → Option α) (before : State) :
    (∃ token rest value, before.rest = token :: rest ∧ classify token = some value ∧
      accept classify before = .ok (some value) { before with rest }) ∨
    ((∀ token ∈ before.rest.head?, classify token = none) ∧
      accept classify before = .ok none before) := by
  cases rest_eq : before.rest with
  | nil => exact .inr ⟨by simp, accept_nil rest_eq⟩
  | cons token rest =>
      cases classified : classify token with
      | some value => exact .inl ⟨token, rest, value, rfl, classified, accept_some rest_eq classified⟩
      | none =>
          have refused : ∀ other ∈ before.rest.head?, classify other = none := by
            simp [rest_eq, classified]
          exact .inr ⟨by simpa [rest_eq] using refused, accept_none refused⟩

/-- What follows the acceptance of a token, for the two ways in which it can go. -/
theorem reads_accept_bind {classify : Token → Option α} {next : Option α → Parser β}
    {hit : α → Surroundings → List Token → List Token → β → Prop}
    {miss : Surroundings → List Token → List Token → β → Prop}
    (taken : ∀ value, Reads tolerated (next (some value)) (hit value))
    (left : Reads tolerated (next none) miss) :
    Reads tolerated (accept classify >>= next) fun surroundings tokens rest result =>
      (∃ token value others, tokens = token :: others ∧ classify token = some value ∧
        hit value surroundings others rest result) ∨
      ((∀ token ∈ (tokens ++ rest).head?, classify token = none) ∧
        miss surroundings tokens rest result) := by
  constructor
  · intro before
    rcases accept_cases classify before with
      ⟨token, rest, value, rest_eq, classified, run⟩ | ⟨_, run⟩
    · have later := (taken value).leads { before with rest }
      simp only [stop, bind_of_ok run] at later ⊢
      have first : before.Leads { before with rest } :=
        ⟨by simp [rest_eq], rfl, rfl, List.prefix_rfl⟩
      exact first.trans later
    · have later := left.leads before
      simp only [stop, bind_of_ok run] at later ⊢
      exact later
  · intro before after error run
    rcases accept_cases classify before with
      ⟨token, rest, value, _, _, acceptRun⟩ | ⟨_, acceptRun⟩
    · rw [bind_of_ok acceptRun] at run
      exact (taken value).fatal_of_error run
    · rw [bind_of_ok acceptRun] at run
      exact left.fatal_of_error run
  · intro before after result run all
    rcases accept_cases classify before with
      ⟨token, rest, value, rest_eq, classified, acceptRun⟩ | ⟨refused, acceptRun⟩
    · rw [bind_of_ok acceptRun] at run
      rcases (taken value).described_of_ok run all with ⟨others, others_eq, holds⟩
      refine ⟨token :: others, ?_, .inl ⟨token, value, others, rfl, classified, holds⟩⟩
      rw [rest_eq]
      exact congrArg (token :: ·) others_eq
    · rw [bind_of_ok acceptRun] at run
      rcases left.described_of_ok run all with ⟨tokens, tokens_eq, holds⟩
      rw [tokens_eq] at refused
      exact ⟨tokens, tokens_eq, .inr ⟨refused, holds⟩⟩

theorem reads_accept (classify : Token → Option α) :
    Reads tolerated (accept classify) fun _ tokens rest found =>
      (∃ token value, tokens = [token] ∧ classify token = some value ∧ found = some value) ∨
      ((∀ token ∈ (tokens ++ rest).head?, classify token = none) ∧ tokens = [] ∧
        found = none) := by
  have accepted : Reads tolerated (accept classify >>= pure) _ :=
    reads_accept_bind (fun value => reads_pure (some value)) (reads_pure none)
  rw [bind_pure] at accepted
  apply accepted.mono
  rintro surroundings tokens rest found
    (⟨token, value, others, rfl, classified, rfl, rfl⟩ | refused)
  · exact .inl ⟨token, value, rfl, classified, rfl⟩
  · exact .inr refused

section Repetition

variable {step : α → Parser (Option α)}
  {stepped : α → Surroundings → List Token → List Token → Option α → Prop}

theorem leads_iterate (step_reads : ∀ value, Reads tolerated (step value) (stepped value))
    (bound : List Token) (value : α) (before : State) :
    before.Leads (stop (iterate step bound value) before) := by
  induction bound generalizing value before with
  | nil => exact .refl before
  | cons _ bound ih =>
      cases run : step value before with
      | ok next middle =>
          have first := (step_reads value).leads_of_ok run
          simp only [stop, iterate, bind_of_ok run]
          cases next with
          | some next => exact first.trans (ih next middle)
          | none => exact first
      | error error after =>
          simp only [stop, iterate, bind_of_error run]
          exact (step_reads value).leads_of_error run

theorem fatal_of_iterate_error (step_reads : ∀ value, Reads tolerated (step value) (stepped value))
    (bound : List Token) (value : α) {before after : State} {error : SyntaxError}
    (run : iterate step bound value before = .error error after) : error.cause.isFatal = true := by
  induction bound generalizing value before with
  | nil => cases run
  | cons _ bound ih =>
      simp only [iterate] at run
      cases stepRun : step value before with
      | ok next middle =>
          rw [bind_of_ok stepRun] at run
          cases next with
          | some next => exact ih next run
          | none => cases run
      | error error middle =>
          rw [bind_of_error stepRun] at run
          cases run
          exact (step_reads value).fatal_of_error stepRun

/-- A repetition ends because a step gives nothing or because no token is left: a step that gives
something reads a token, and the bound has as many as there are left. -/
theorem described_iterate {chained : α → Surroundings → List Token → List Token → α → Prop}
    (step_reads : ∀ value, Reads tolerated (step value) (stepped value))
    (progress : ∀ value next surroundings tokens rest,
      stepped value surroundings tokens rest (some next) → tokens ≠ [])
    (atEnd : ∀ value surroundings, chained value surroundings [] [] value)
    (last : ∀ value surroundings tokens rest,
      stepped value surroundings tokens rest none → chained value surroundings tokens rest value)
    (more : ∀ value next result surroundings left right rest,
      stepped value surroundings left (right ++ rest) (some next) →
      chained next surroundings right rest result →
      chained value surroundings (left ++ right) rest result)
    (bound : List Token) (value : α) {before after : State} {result : α}
    (enough : before.rest.length ≤ bound.length)
    (run : iterate step bound value before = .ok result after)
    (all : ∀ error ∈ after.errors, tolerated error.cause) :
    ∃ tokens, before.rest = tokens ++ after.rest ∧
      chained value before.surroundings tokens after.rest result := by
  induction bound generalizing value before with
  | nil =>
      have rest_eq : before.rest = [] := List.eq_nil_of_length_eq_zero (Nat.le_zero.mp enough)
      cases run
      rw [rest_eq]
      exact ⟨[], rfl, atEnd _ _⟩
  | cons _ bound ih =>
      simp only [iterate] at run
      cases stepRun : step value before with
      | error error middle =>
          rw [bind_of_error stepRun] at run
          cases run
      | ok next middle =>
          rw [bind_of_ok stepRun] at run
          have stepLeads := (step_reads value).leads_of_ok stepRun
          cases next with
          | none =>
              cases run
              rcases (step_reads _).described_of_ok stepRun all with ⟨tokens, rest_eq, holds⟩
              exact ⟨tokens, rest_eq, last _ _ _ _ holds⟩
          | some next =>
              have laterLeads := leads_iterate step_reads bound next middle
              rw [stop_of_ok run] at laterLeads
              rcases (step_reads value).described_of_ok stepRun
                (laterLeads.tolerated_of_after all) with ⟨left, left_eq, holds⟩
              have read := progress _ _ _ _ _ holds
              have shorter : middle.rest.length ≤ bound.length := by
                have length_eq := congrArg List.length left_eq
                have read_pos := List.length_pos_iff.mpr read
                simp only [List.length_append, List.length_cons] at length_eq enough
                omega
              rcases ih next shorter run with ⟨right, right_eq, later⟩
              rw [stepLeads.surroundings_eq] at later
              rw [right_eq] at left_eq holds
              exact ⟨left ++ right, by simp [left_eq], more _ _ _ _ _ _ _ holds later⟩

/-- What a repetition reads, as a chain of what its steps read. -/
theorem reads_loop (chained : α → Surroundings → List Token → List Token → α → Prop)
    (step_reads : ∀ value, Reads tolerated (step value) (stepped value))
    (progress : ∀ value next surroundings tokens rest,
      stepped value surroundings tokens rest (some next) → tokens ≠ [])
    (atEnd : ∀ value surroundings, chained value surroundings [] [] value)
    (last : ∀ value surroundings tokens rest,
      stepped value surroundings tokens rest none → chained value surroundings tokens rest value)
    (more : ∀ value next result surroundings left right rest,
      stepped value surroundings left (right ++ rest) (some next) →
      chained next surroundings right rest result →
      chained value surroundings (left ++ right) rest result)
    (value : α) : Reads tolerated (loop step value) (chained value) := by
  constructor
  · intro before
    exact leads_iterate step_reads before.rest value before
  · intro before after error run
    exact fatal_of_iterate_error step_reads before.rest value run
  · intro before after result run all
    exact described_iterate step_reads progress atEnd last more before.rest value
      (Nat.le_refl _) run all

/-- What the items of a list read, in order. The list ends where an item gives nothing or no token
is left. -/
theorem reads_many {item : Parser (Option α)}
    {described : Surroundings → List Token → List Token → Option α → Prop}
    (item_reads : Reads tolerated item described)
    (progress : ∀ surroundings tokens rest value,
      described surroundings tokens rest (some value) → tokens ≠ [])
    (quiet : ∀ surroundings tokens rest, described surroundings tokens rest none → tokens = []) :
    Reads tolerated (many item) fun surroundings tokens rest values =>
      ∃ parts : List (List Token × α), parts.flatMap Prod.fst = tokens ∧
        parts.map Prod.snd = values ∧
        (∀ part ∈ parts, ∃ rest, described surroundings part.1 rest (some part.2)) ∧
        (rest = [] ∨ described surroundings [] rest none) := by
  have looped := reads_loop
    (fun earlier surroundings tokens rest reversed =>
      ∃ parts : List (List Token × α), parts.flatMap Prod.fst = tokens ∧
        reversed = (parts.map Prod.snd).reverse ++ earlier ∧
        (∀ part ∈ parts, ∃ rest, described surroundings part.1 rest (some part.2)) ∧
        (rest = [] ∨ described surroundings [] rest none))
    (fun earlier => item_reads.bind fun found => reads_pure (found.map (· :: earlier)))
    ?_ ?_ ?_ ?_ []
  · apply (looped.bind fun reversed => reads_pure reversed.reverse).mono
    rintro surroundings tokens rest values
      ⟨reversed, left, right, rfl, ⟨parts, rfl, rfl, derive, ended⟩, rfl, rfl⟩
    exact ⟨parts, by simp, by simp, derive, by simpa using ended⟩
  · rintro earlier next surroundings tokens rest ⟨found, left, right, rfl, holds, rfl, found_eq⟩
    cases found with
    | none => simp at found_eq
    | some value => simpa using progress _ _ _ _ holds
  · intro earlier surroundings
    exact ⟨[], rfl, rfl, by simp, .inl rfl⟩
  · rintro earlier surroundings tokens rest ⟨found, left, right, rfl, holds, rfl, found_eq⟩
    cases found with
    | some value => simp at found_eq
    | none =>
        have left_eq := quiet _ _ _ holds
        subst left_eq
        exact ⟨[], rfl, rfl, by simp, .inr (by simpa using holds)⟩
  · rintro earlier next reversed surroundings left right rest
      ⟨found, first, nothing, rfl, holds, rfl, found_eq⟩ ⟨parts, rfl, rfl, derive, ended⟩
    cases found with
    | none => simp at found_eq
    | some value =>
        simp only [Option.map_some, Option.some.injEq] at found_eq
        subst found_eq
        refine ⟨(first, value) :: parts, by simp, by simp, ?_, ended⟩
        intro part part_mem
        rcases List.mem_cons.mp part_mem with rfl | part_mem
        · exact ⟨_, holds⟩
        · exact derive part part_mem

end Repetition

theorem reads_acceptKind_bind {kind : Token.Kind} {next : Option (Token.OfKind kind) → Parser β}
    {hit : Token.OfKind kind → Surroundings → List Token → List Token → β → Prop}
    {miss : Surroundings → List Token → List Token → β → Prop}
    (taken : ∀ known, Reads tolerated (next (some known)) (hit known))
    (left : Reads tolerated (next none) miss) :
    Reads tolerated (acceptKind kind >>= next) fun surroundings tokens rest result =>
      (∃ (known : Token.OfKind kind) (others : List Token), tokens = known.token :: others ∧
        hit known surroundings others rest result) ∨
      ((∀ token ∈ (tokens ++ rest).head?, token.kind ≠ kind) ∧
        miss surroundings tokens rest result) := by
  apply (reads_accept_bind taken left).mono
  rintro surroundings tokens rest result
    (⟨token, known, others, rfl, classified, holds⟩ | ⟨refused, holds⟩)
  · rw [Token.OfKind.of?_eq_some_iff] at classified
    subst classified
    exact .inl ⟨known, others, rfl, holds⟩
  · refine .inr ⟨?_, holds⟩
    intro token token_mem
    exact Token.OfKind.of?_eq_none_iff.mp (refused token token_mem)

/-- What follows a look at the next token, for the two ways in which it can go. -/
theorem reads_check_bind {kind : Token.Kind} {next : Bool → Parser β}
    {hit miss : Surroundings → List Token → List Token → β → Prop}
    (found : Reads tolerated (next true) hit) (absent : Reads tolerated (next false) miss) :
    Reads tolerated (check kind >>= next) fun surroundings tokens rest result =>
      ((∃ token ∈ (tokens ++ rest).head?, token.kind = kind) ∧
        hit surroundings tokens rest result) ∨
      ((∀ token ∈ (tokens ++ rest).head?, token.kind ≠ kind) ∧
        miss surroundings tokens rest result) := by
  have branches (result : Bool) :
      Reads tolerated (next result) (if result = true then hit else miss) := by
    cases result with
    | true => exact found
    | false => exact absent
  apply ((reads_check kind).bind branches).mono
  rintro surroundings tokens rest outcome ⟨result, left, right, rfl, ⟨rfl, rfl⟩, holds⟩
  by_cases present : (right ++ rest).head?.any (·.kind = kind) = true
  · rw [if_pos present] at holds
    rw [Option.any_eq_true] at present
    exact .inl ⟨by simpa using present, holds⟩
  · rw [if_neg present] at holds
    rw [Bool.not_eq_true, Option.any_eq_false] at present
    exact .inr ⟨by simpa using present, holds⟩

theorem reads_expect {kind : Token.Kind} {cause : SyntaxError.Cause}
    (fatal : cause.isFatal = true) :
    Reads tolerated (expect kind cause) fun _ tokens _ known => tokens = [known.token] := by
  apply (reads_acceptKind_bind (fun known => reads_pure known) (reads_fail fatal)).mono
  rintro surroundings tokens rest known
    (⟨found, others, rfl, rfl, rfl⟩ | ⟨_, impossible⟩)
  · rfl
  · exact impossible.elim

theorem reads_expectSymbol (kind : Token.Kind) (place : SyntaxError.Place) :
    Reads tolerated (expectSymbol kind place) fun _ tokens _ known => tokens = [known.token] :=
  reads_expect rfl

section Lists

variable {item : Parser α} {described : Surroundings → List Token → List Token → α → Prop}
  {excess : SyntaxError.Cause}

theorem reads_member (item_reads : Reads tolerated item described) (earlier : List α) :
    Reads tolerated (member excess item earlier) fun surroundings tokens rest values =>
      ∃ value, values = value :: earlier ∧ described surroundings tokens rest value ∧
        (earlier.length < maxArity ∨ tolerated excess) := by
  have read : Reads tolerated (item >>= fun value => pure (value :: earlier)) _ :=
    item_reads.bind fun value => reads_pure (value :: earlier)
  by_cases full : maxArity ≤ earlier.length
  · simp only [member, full, if_true]
    apply ((reads_reportHere excess).bind fun _ => read).mono
    rintro surroundings tokens rest values
      ⟨_, _, _, rfl, ⟨rfl, allowed⟩, value, left, right, rfl, holds, rfl, rfl⟩
    exact ⟨value, rfl, by simpa using holds, .inr allowed⟩
  · simp only [member, full, if_false]
    apply read.mono
    rintro surroundings tokens rest values ⟨value, left, right, rfl, holds, rfl, rfl⟩
    exact ⟨value, rfl, by simpa using holds, .inl (Nat.lt_of_not_le full)⟩

/-- The list is built in reverse. What is read after its first items is, for each further item, a
comma and the item. -/
theorem reads_separated (item_reads : Reads tolerated item described) :
    Reads tolerated (separated excess item) fun surroundings tokens _ values =>
      ∃ pieces : List (List Token × α), Separated (pieces.map Prod.fst) tokens ∧
        pieces.map Prod.snd = values ∧ pieces ≠ [] ∧
        (∀ piece ∈ pieces, ∃ rest, described surroundings piece.1 rest piece.2) ∧
        (pieces.length ≤ maxArity ∨ tolerated excess) := by
  refine ((reads_member item_reads []).bind fun first =>
    (reads_loop
      (fun earlier surroundings tokens _ reversed =>
        ∃ pieces : List (List Token × α),
          (∀ first, Separated (first :: pieces.map Prod.fst) (first ++ tokens)) ∧
          reversed = (pieces.map Prod.snd).reverse ++ earlier ∧
          (∀ piece ∈ pieces, ∃ rest, described surroundings piece.1 rest piece.2) ∧
          (earlier.length ≤ maxArity → pieces.length + earlier.length ≤ maxArity ∨
            tolerated excess))
      (fun earlier => reads_acceptKind_bind
        (fun _ => (reads_member item_reads earlier).bind fun values => reads_pure (some values))
        (reads_pure none))
      ?_ ?_ ?_ ?_ first).bind fun reversed => reads_pure reversed.reverse).mono ?_
  · rintro earlier next surroundings tokens rest
      (⟨comma, others, rfl, _⟩ | ⟨_, rfl, impossible⟩)
    · simp
    · cases impossible
  · intro earlier surroundings
    exact ⟨[], fun first => by simpa using .single, rfl, by simp, fun few => .inl (by simpa using few)⟩
  · rintro earlier surroundings tokens rest
      (⟨comma, others, rfl, values, left, right, rfl, _, rfl, impossible⟩ | ⟨_, rfl, _⟩)
    · cases impossible
    · exact ⟨[], fun first => by simpa using .single, rfl, by simp,
        fun few => .inl (by simpa using few)⟩
  · rintro earlier next reversed surroundings left right rest
      (⟨comma, others, rfl, values, first, nothing, rfl, ⟨value, rfl, holds, few⟩, rfl, next_eq⟩ |
        ⟨_, rfl, impossible⟩)
      ⟨pieces, separated, rfl, derive, fewer⟩
    · cases next_eq
      refine ⟨(first, value) :: pieces, ?_, by simp, ?_, ?_⟩
      · intro piece
        simpa using Separated.comma (separated first)
      · intro piece piece_mem
        rcases List.mem_cons.mp piece_mem with rfl | piece_mem
        · exact ⟨_, holds⟩
        · exact derive piece piece_mem
      · intro _
        rcases few with few | allowed
        · rcases fewer (Nat.succ_le_of_lt few) with fewer | allowed
          · exact .inl (by simp only [List.length_cons] at fewer ⊢; omega)
          · exact .inr allowed
        · exact .inr allowed
    · cases impossible
  · rintro surroundings tokens rest values
      ⟨_, left, _, rfl, ⟨value, rfl, holds, few⟩, reversed, right, _, rfl,
        ⟨pieces, separated, rfl, derive, fewer⟩, rfl, rfl⟩
    refine ⟨(left, value) :: pieces, by simpa using separated left, by simp, by simp, ?_, ?_⟩
    · intro piece piece_mem
      rcases List.mem_cons.mp piece_mem with rfl | piece_mem
      · exact ⟨_, holds⟩
      · exact derive piece piece_mem
    · exact fewer (by simp [maxArity])

theorem reads_closedList (item_reads : Reads tolerated item described)
    (place : SyntaxError.Place) :
    Reads tolerated (closedList excess place item) fun surroundings tokens _ result =>
      ∃ (pieces : List (List Token × α)) (inner : List Token),
        tokens = inner ++ [result.2.token] ∧ Separated (pieces.map Prod.fst) inner ∧
        pieces.map Prod.snd = result.1 ∧
        (∀ piece ∈ pieces, ∃ rest, described surroundings piece.1 rest piece.2) ∧
        (pieces.length ≤ maxArity ∨ tolerated excess) := by
  refine (reads_check_bind
    ((reads_expectSymbol .rightParen place).bind fun paren => reads_pure ([], paren))
    ((reads_separated item_reads).bind fun items =>
      (reads_expectSymbol .rightParen place).bind fun paren => reads_pure (items, paren))).mono ?_
  rintro surroundings tokens rest result
    (⟨_, paren, left, right, rfl, rfl, rfl, rfl⟩ |
      ⟨_, items, left, right, rfl, ⟨pieces, separated, rfl, _, derive, few⟩,
        paren, close, nothing, rfl, rfl, rfl, rfl⟩)
  · exact ⟨[], [], rfl, .empty, rfl, by simp, .inl (by simp)⟩
  · exact ⟨pieces, left, by simp, separated, rfl, derive, few⟩

end Lists

section Nesting

variable {parser : Parser α} {described : Surroundings → List Token → List Token → α → Prop}

theorem reads_inLoop (reads : Reads tolerated parser described) :
    Reads tolerated (inLoop parser) fun surroundings tokens rest value =>
      described ⟨true, surroundings.inFunction⟩ tokens rest value := by
  have inner (before : State) := reads.leads { before with loopDepth := before.loopDepth + 1 }
  constructor
  · intro before
    have leads := inner before
    cases run : parser { before with loopDepth := before.loopDepth + 1 } <;>
      simp only [stop, inLoop, run] at leads ⊢ <;>
      exact ⟨leads.rest_suffix, by simp [leads.loopDepth_eq], leads.functionDepth_eq,
        leads.errors_prefix⟩
  · intro before after error run
    cases innerRun : parser { before with loopDepth := before.loopDepth + 1 } with
    | ok value middle => simp [inLoop, innerRun] at run
    | error error middle =>
        simp only [inLoop, innerRun, EStateM.Result.error.injEq] at run
        exact run.1 ▸ reads.fatal_of_error innerRun
  · intro before after value run all
    cases innerRun : parser { before with loopDepth := before.loopDepth + 1 } with
    | error error middle => simp [inLoop, innerRun] at run
    | ok result middle =>
        simp only [inLoop, innerRun, EStateM.Result.ok.injEq] at run
        rcases run with ⟨rfl, rfl⟩
        simpa [State.surroundings] using reads.described_of_ok innerRun all

theorem reads_inFunction (reads : Reads tolerated parser described) :
    Reads tolerated (inFunction parser) fun _ tokens rest value =>
      described ⟨false, true⟩ tokens rest value := by
  have inner (before : State) := reads.leads
    { before with loopDepth := 0, functionDepth := before.functionDepth + 1 }
  constructor
  · intro before
    have leads := inner before
    cases run : parser { before with loopDepth := 0, functionDepth := before.functionDepth + 1 } <;>
      simp only [stop, inFunction, run] at leads ⊢ <;>
      exact ⟨leads.rest_suffix, rfl, by simp [leads.functionDepth_eq], leads.errors_prefix⟩
  · intro before after error run
    cases innerRun : parser
        { before with loopDepth := 0, functionDepth := before.functionDepth + 1 } with
    | ok value middle => simp [inFunction, innerRun] at run
    | error error middle =>
        simp only [inFunction, innerRun, EStateM.Result.error.injEq] at run
        exact run.1 ▸ reads.fatal_of_error innerRun
  · intro before after value run all
    cases innerRun : parser
        { before with loopDepth := 0, functionDepth := before.functionDepth + 1 } with
    | error error middle => simp [inFunction, innerRun] at run
    | ok result middle =>
        simp only [inFunction, innerRun, EStateM.Result.ok.injEq] at run
        rcases run with ⟨rfl, rfl⟩
        simpa [State.surroundings] using reads.described_of_ok innerRun all

theorem resume_suffix (tokens : List Token) : resume tokens <:+ tokens := by
  fun_induction resume tokens with
  | case1 => exact List.suffix_rfl
  | case2 token rest _ => exact List.suffix_cons token rest
  | case3 token rest _ _ => exact List.suffix_cons token rest
  | case4 token rest _ _ ih => exact ih.trans (List.suffix_cons token rest)

theorem length_resume_lt {tokens : List Token} (nonempty : tokens ≠ []) :
    (resume tokens).length < tokens.length := by
  cases tokens with
  | nil => exact absurd rfl nonempty
  | cons token rest =>
      rw [resume]
      split
      · simp
      · split
        · simp
        · have shorter := (resume_suffix rest).length_le
          simp only [List.length_cons]
          omega

/-- A declaration that fails is tokens that are skipped. Some token is, if there was one. -/
theorem reads_recovering (reads : Reads tolerated parser described) :
    Reads tolerated (recovering parser) fun surroundings tokens rest result =>
      (∃ value, result = some value ∧ described surroundings tokens rest value) ∨
      (result = none ∧ Skips tolerated ∧ (tokens = [] → rest = [])) := by
  constructor
  · intro before
    cases run : parser before with
    | ok value after =>
        simpa [stop, recovering, run] using reads.leads_of_ok run
    | error error after =>
        have leads := reads.leads_of_error run
        simp only [stop, recovering, run]
        exact leads.trans ⟨resume_suffix _, rfl, rfl, List.prefix_append _ _⟩
  · intro before after error run
    cases innerRun : parser before <;> simp [recovering, innerRun] at run
  · intro before after result run all
    cases innerRun : parser before with
    | ok value middle =>
        simp only [recovering, innerRun, EStateM.Result.ok.injEq] at run
        rcases run with ⟨rfl, rfl⟩
        rcases reads.described_of_ok innerRun all with ⟨tokens, rest_eq, holds⟩
        exact ⟨tokens, rest_eq, .inl ⟨value, rfl, holds⟩⟩
    | error error middle =>
        simp only [recovering, innerRun, EStateM.Result.ok.injEq] at run
        rcases run with ⟨rfl, rfl⟩
        have suffix := (resume_suffix middle.rest).trans (reads.leads_of_error innerRun).rest_suffix
        rcases suffix with ⟨tokens, tokens_eq⟩
        refine ⟨tokens, tokens_eq.symm, .inr ⟨rfl, ?_, ?_⟩⟩
        · exact ⟨error.cause, reads.fatal_of_error innerRun, all error (by simp)⟩
        · rintro rfl
          cases rest_eq : middle.rest with
          | nil => rfl
          | cons token others =>
              have read := (reads.leads_of_error innerRun).length_le
              have same := congrArg List.length tokens_eq
              have shorter : (resume middle.rest).length < middle.rest.length :=
                length_resume_lt (by simp [rest_eq])
              simp only [List.nil_append] at same
              omega

end Nesting

end Scriptlet.Parser
