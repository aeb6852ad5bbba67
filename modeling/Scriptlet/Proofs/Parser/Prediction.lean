import Scriptlet.Proofs.Parser.StatementAcceptance
import Scriptlet.Proofs.Parser.Unrolling

/-!
# Readers that look one token ahead

What a reader does depends on the tokens that it reads and on the next one, and on nothing behind
it. So a run carries over to other tokens with the same beginning, and so does its first fault: it
is raised at a token such that whatever follows could not have avoided it. Up to that token, on the
other hand, the tokens could have gone on to make up what the reader is for; these tokens are called
unfinished.

`Foresees` says this of a reader, on states with few tokens left. Its rules follow the ways in which
readers are put together.
-/

namespace Scriptlet.Parser

open Grammar

variable {α β γ : Type} {tolerated : Tolerance} {room : Nat}

/-- What a reader minds of the token behind those that it reads. -/
inductive Lookahead where
  | anything
  | elseWord

/-- Which tokens may stand in place of others behind those that a reader reads. -/
def Lookahead.Allows : Lookahead → List Token → List Token → Prop
  | .anything, left, right => right.head? = left.head?
  | .elseWord, left, right => NoElse left → NoElse right

theorem Lookahead.allows_of_head?_eq (lookahead : Lookahead) {left right : List Token}
    (same : right.head? = left.head?) : lookahead.Allows left right := by
  cases lookahead with
  | anything => exact same
  | elseWord => exact fun noElse => by rwa [NoElse, same]

/-- What a reader minds behind the tokens of another one is behind its own tokens, or it is the
first of these. -/
theorem Lookahead.Allows.append {lookahead : Lookahead} {left right : List Token}
    (allows : lookahead.Allows left right) (read : List Token) :
    lookahead.Allows (read ++ left) (read ++ right) := by
  cases read with
  | nil => exact allows
  | cons => exact lookahead.allows_of_head?_eq rfl

theorem head?_append_eq {left right : List Token} (same : right.head? = left.head?)
    (read : List Token) : (read ++ right).head? = (read ++ left).head? := by
  rw [List.head?_append, List.head?_append, same]

/-- A state in which some tokens are there to be read as in another one, in front of others. -/
structure State.Twin (read left right : List Token) (before twin : State) : Prop where
  rest_eq : before.rest = read ++ left
  twin_rest_eq : twin.rest = read ++ right
  loopDepth_eq : twin.loopDepth = before.loopDepth
  functionDepth_eq : twin.functionDepth = before.functionDepth

/-- A state after tokens were read and errors were reported. -/
def State.past (state : State) (rest : List Token) (added : List SyntaxError) : State :=
  { state with rest, errors := state.errors ++ added }

/-- A result with another state. -/
def inState (result : EStateM.Result SyntaxError State α) (state : State) :
    EStateM.Result SyntaxError State α :=
  match result with
  | .ok value _ => .ok value state
  | .error error _ => .error error state

/-- What may stand in place of the tokens left by a run. After a failure the next token must stay
the same, since the failure is about it. -/
def Follows (lookahead : Lookahead) (result : EStateM.Result SyntaxError State α)
    (right : List Token) : Prop :=
  match result with
  | .ok _ after => lookahead.Allows after.rest right
  | .error _ after => right.head? = after.rest.head?

/-- What a run adds to the errors. An error is at the end of input only if the run comes there. -/
structure State.Adds (before after : State) (added : List SyntaxError) : Prop where
  errors_eq : after.errors = before.errors ++ added
  located : ∀ error ∈ added, error.token = none → after.rest = []

/-- The first fault of a run that is not tolerated, or the one that ends the run. -/
inductive FirstFault (tolerated : Tolerance) (parser : Parser α) (before : State)
    (error : SyntaxError) : Prop where
  | raised {after : State} (run : parser before = .error error after)
      (quiet : ∀ other ∈ after.errors, tolerated other.cause)
  | reported {earlier later : List SyntaxError}
      (errors_eq : (stop parser before).errors = earlier ++ error :: later)
      (quiet : ∀ other ∈ earlier, tolerated other.cause) (fault : ¬tolerated error.cause)

/-- The first fault of a run comes after some tokens, at the next one, whatever follows that. -/
structure StallsAt (tolerated : Tolerance) (parser : Parser α) (before : State)
    (error : SyntaxError) (read left : List Token) : Prop where
  rest_eq : before.rest = read ++ left
  token_eq : error.token = left.head?
  again : ∀ {twin : State} {right : List Token}, State.Twin read left right before twin →
    (∀ other ∈ twin.errors, tolerated other.cause) → right.head? = left.head? →
    FirstFault tolerated parser twin error

/-- Where few tokens are left, a reader looks one token ahead, and its first fault comes after
unfinished tokens. -/
structure Foresees (room : Nat) (tolerated : Tolerance) (lookahead : Lookahead)
    (parser : Parser α) (unfinished : Surroundings → List Token → Prop) : Prop where
  leads : ∀ before : State, before.Leads (stop parser before)
  located : ∀ {before after : State} {error : SyntaxError}, before.rest.length < room →
    parser before = .error error after → error.token = after.rest.head?
  carries : ∀ {before twin : State} {read right : List Token}, before.rest.length < room →
    State.Twin read (stop parser before).rest right before twin →
    Follows lookahead (parser before) right →
    ∃ added, before.Adds (stop parser before) added ∧
      parser twin = inState (parser before) (twin.past right added)
  stalls : ∀ {before : State} {error : SyntaxError}, before.rest.length < room →
    (∀ other ∈ before.errors, tolerated other.cause) → FirstFault tolerated parser before error →
    ∃ read left, StallsAt tolerated parser before error read left ∧
      unfinished before.surroundings read

theorem Follows.of_head?_eq {lookahead : Lookahead} {parser : Parser α} {before : State}
    {right : List Token} (same : right.head? = (stop parser before).rest.head?) :
    Follows lookahead (parser before) right := by
  cases run : parser before with
  | ok value after => exact lookahead.allows_of_head?_eq (stop_of_ok run ▸ same)
  | error error after => exact stop_of_error run ▸ same

theorem Follows.head?_eq {parser : Parser α} {before : State} {right : List Token}
    (follows : Follows .anything (parser before) right) :
    right.head? = (stop parser before).rest.head? := by
  cases run : parser before with
  | ok value after =>
      rw [run] at follows
      exact stop_of_ok run ▸ follows
  | error error after =>
      rw [run] at follows
      exact stop_of_error run ▸ follows

theorem State.Twin.past_twin {read left right : List Token} {before twin middle : State}
    {first : List Token} (twin_of : State.Twin (first ++ read) left right before twin)
    (leads : before.Leads middle) (rest_eq : middle.rest = read ++ left)
    (added : List SyntaxError) :
    State.Twin read left right middle (twin.past (read ++ right) added) where
  rest_eq := rest_eq
  twin_rest_eq := rfl
  loopDepth_eq := twin_of.loopDepth_eq.trans leads.loopDepth_eq.symm
  functionDepth_eq := twin_of.functionDepth_eq.trans leads.functionDepth_eq.symm

/-- What is read in two parts on a state is read in the same parts on a twin. -/
theorem State.Twin.part {first read left right : List Token} {before twin : State}
    (twin_of : State.Twin (first ++ read) left right before twin) :
    State.Twin first (read ++ left) (read ++ right) before twin where
  rest_eq := by rw [twin_of.rest_eq, List.append_assoc]
  twin_rest_eq := by rw [twin_of.twin_rest_eq, List.append_assoc]
  loopDepth_eq := twin_of.loopDepth_eq
  functionDepth_eq := twin_of.functionDepth_eq

/-- Where a run comes through another state, it reads some of its tokens before that. -/
theorem State.Twin.exists_parts {read left right middle_rest : List Token} {before twin : State}
    (twin_of : State.Twin read left right before twin) (earlier : middle_rest <:+ before.rest)
    (later : left <:+ middle_rest) :
    ∃ first others, read = first ++ others ∧ middle_rest = others ++ left := by
  obtain ⟨first, before_eq⟩ := earlier
  obtain ⟨others, rfl⟩ := later
  refine ⟨first, others, ?_, rfl⟩
  apply (List.append_left_inj left).mp
  rw [← twin_of.rest_eq, ← before_eq, List.append_assoc]

/-- A twin after the first token. -/
theorem State.Twin.tail {token : Token} {others rest left right : List Token}
    {before twin : State} (twin_of : State.Twin (token :: others) left right before twin)
    (rest_eq : before.rest = token :: rest) :
    State.Twin others left right { before with rest } { twin with rest := others ++ right } where
  rest_eq := (List.cons.inj (rest_eq.symm.trans twin_of.rest_eq)).2
  twin_rest_eq := rfl
  loopDepth_eq := twin_of.loopDepth_eq
  functionDepth_eq := twin_of.functionDepth_eq

theorem State.past_past (state : State) (rest others : List Token)
    (first second : List SyntaxError) :
    (state.past rest first).past others second = state.past others (first ++ second) := by
  simp only [State.past, List.append_assoc]

theorem State.Adds.refl (state : State) : state.Adds state [] :=
  ⟨by simp, by simp⟩

theorem State.Adds.trans {before middle after : State} {first second : List SyntaxError}
    (earlier : before.Adds middle first) (later : middle.Adds after second)
    (leads : middle.Leads after) : before.Adds after (first ++ second) := by
  refine ⟨?_, ?_⟩
  · rw [later.errors_eq, earlier.errors_eq, List.append_assoc]
  · intro error error_mem at_end
    rcases List.mem_append.mp error_mem with error_mem | error_mem
    · have ended := leads.rest_suffix
      rw [earlier.located error error_mem at_end] at ended
      exact List.suffix_nil.mp ended
    · exact later.located error error_mem at_end

section Faults

variable {parser : Parser α} {next : α → Parser β} {before : State} {error : SyntaxError}

theorem not_firstFault {value : α} {after : State} (run : parser before = .ok value after)
    (quiet : ∀ other ∈ after.errors, tolerated other.cause) :
    ¬FirstFault tolerated parser before error := by
  rintro (⟨failed, _⟩ | ⟨errors_eq, _, fault⟩)
  · rw [run] at failed
    cases failed
  · rw [stop_of_ok run] at errors_eq
    exact fault (quiet error (by simp [errors_eq]))

theorem FirstFault.congr {parser other : Parser α} {before state : State} {error : SyntaxError}
    (same : parser before = other state) (fault : FirstFault tolerated parser before error) :
    FirstFault tolerated other state error := by
  rcases fault with ⟨run, quiet⟩ | ⟨errors_eq, quiet, fault⟩
  · exact .raised (same.symm.trans run) quiet
  · rw [stop, same] at errors_eq
    exact .reported errors_eq quiet fault

theorem not_firstFault_report {other : SyntaxError} (allowed : tolerated error.cause)
    (quiet : ∀ earlier ∈ before.errors, tolerated earlier.cause) :
    ¬FirstFault tolerated (report error) before other :=
  not_firstFault rfl (List.forall_mem_append.mpr ⟨quiet, by simpa using allowed⟩)

theorem exists_first_of_prefix {earlier later errors : List SyntaxError}
    (begins : errors <+: earlier ++ error :: later)
    (quiet : ∀ other ∈ earlier, tolerated other.cause) :
    (∀ other ∈ errors, tolerated other.cause) ∨
      ∃ others, errors = earlier ++ error :: others := by
  have first : earlier ++ [error] <+: earlier ++ error :: later := ⟨later, by simp⟩
  rcases List.prefix_or_prefix_of_prefix begins first with shorter | longer
  · rcases List.prefix_concat_iff.mp shorter with errors_eq | shorter
    · exact .inr ⟨[], errors_eq⟩
    · exact .inl fun other other_mem => quiet other (shorter.subset other_mem)
  · rcases longer with ⟨others, errors_eq⟩
    exact .inr ⟨others, by simp [← errors_eq]⟩

/-- The first fault of two readers in a row is that of the first one, or it comes after that. -/
theorem firstFault_bind_iff
    (leads : ∀ value (state : State), state.Leads (stop (next value) state)) :
    FirstFault tolerated (parser >>= next) before error ↔
      FirstFault tolerated parser before error ∨
        ∃ value middle, parser before = .ok value middle ∧
          (∀ other ∈ middle.errors, tolerated other.cause) ∧
          FirstFault tolerated (next value) middle error := by
  cases first_run : parser before with
  | error other middle =>
      have bind_run : (parser >>= next) before = .error other middle := bind_of_error first_run
      constructor
      · rintro (⟨run, quiet⟩ | ⟨errors_eq, quiet, fault⟩)
        · cases bind_run.symm.trans run
          exact .inl (.raised first_run quiet)
        · rw [stop_of_error bind_run, ← stop_of_error first_run] at errors_eq
          exact .inl (.reported errors_eq quiet fault)
      · rintro ((⟨run, quiet⟩ | ⟨errors_eq, quiet, fault⟩) | ⟨_, _, impossible, _⟩)
        · cases first_run.symm.trans run
          exact .raised bind_run quiet
        · rw [stop_of_error first_run, ← stop_of_error bind_run] at errors_eq
          exact .reported errors_eq quiet fault
        · cases impossible
  | ok value middle =>
      have bind_run : (parser >>= next) before = next value middle := bind_of_ok first_run
      have later_leads := leads value middle
      have stop_eq : stop (parser >>= next) before = stop (next value) middle :=
        stop_bind_of_ok first_run
      constructor
      · rintro (⟨run, quiet⟩ | ⟨errors_eq, quiet, fault⟩)
        · rw [bind_run] at run
          rw [stop_of_error run] at later_leads
          exact .inr ⟨value, middle, rfl, later_leads.tolerated_of_after quiet, .raised run quiet⟩
        · rw [stop_eq] at errors_eq
          have errors_prefix := later_leads.errors_prefix
          rw [errors_eq] at errors_prefix
          rcases exists_first_of_prefix errors_prefix quiet with all | ⟨others, middle_eq⟩
          · exact .inr ⟨value, middle, rfl, all, .reported errors_eq quiet fault⟩
          · rw [← stop_of_ok first_run] at middle_eq
            exact .inl (.reported middle_eq quiet fault)
      · rintro ((⟨run, _⟩ | ⟨errors_eq, quiet, fault⟩) | ⟨_, _, same, _, (⟨run, quiet⟩ |
          ⟨errors_eq, quiet, fault⟩)⟩)
        · rw [first_run] at run
          cases run
        · rcases later_leads.errors_prefix with ⟨more, more_eq⟩
          rw [stop_of_ok first_run] at errors_eq
          rw [errors_eq, List.append_assoc, List.cons_append, ← stop_eq] at more_eq
          exact .reported more_eq.symm quiet fault
        · cases same
          exact .raised (bind_run.trans run) quiet
        · cases same
          exact .reported (stop_eq ▸ errors_eq) quiet fault

end Faults

namespace Foresees

variable {lookahead : Lookahead} {parser : Parser α}
  {unfinished weaker : Surroundings → List Token → Prop}

theorem mono (foresees : Foresees room tolerated lookahead parser unfinished)
    (weaken : ∀ surroundings read, unfinished surroundings read → weaker surroundings read) :
    Foresees room tolerated lookahead parser weaker where
  leads := foresees.leads
  located := foresees.located
  carries := foresees.carries
  stalls := by
    intro before error small quiet fault
    obtain ⟨read, left, stalls, holds⟩ := foresees.stalls small quiet fault
    exact ⟨read, left, stalls, weaken _ _ holds⟩

theorem fewer (foresees : Foresees room tolerated lookahead parser unfinished) {less : Nat}
    (le : less ≤ room) : Foresees less tolerated lookahead parser unfinished where
  leads := foresees.leads
  located small := foresees.located (Nat.lt_of_lt_of_le small le)
  carries small := foresees.carries (Nat.lt_of_lt_of_le small le)
  stalls small := foresees.stalls (Nat.lt_of_lt_of_le small le)

/-- Where no token can be left, nothing is to be foreseen. -/
theorem zero (leads : ∀ before : State, before.Leads (stop parser before)) :
    Foresees 0 tolerated lookahead parser unfinished where
  leads := leads
  located small := absurd small (Nat.not_lt_zero _)
  carries small := absurd small (Nat.not_lt_zero _)
  stalls small := absurd small (Nat.not_lt_zero _)

theorem exists_adds (foresees : Foresees room tolerated lookahead parser unfinished)
    {before : State} (small : before.rest.length < room) :
    ∃ added, before.Adds (stop parser before) added := by
  obtain ⟨read, before_eq⟩ := (foresees.leads before).rest_suffix
  have itself : State.Twin read (stop parser before).rest (stop parser before).rest before before :=
    ⟨before_eq.symm, before_eq.symm, rfl, rfl⟩
  obtain ⟨added, adds, _⟩ := foresees.carries small itself (Follows.of_head?_eq rfl)
  exact ⟨added, adds⟩

/-- On a twin, a reader gives the same value and leaves a twin of what it left. -/
theorem carries_ok (foresees : Foresees room tolerated lookahead parser unfinished)
    {before middle twin : State} {value : α} {read later left right : List Token}
    (small : before.rest.length < room) (run : parser before = .ok value middle)
    (twin_of : State.Twin (read ++ later) left right before twin)
    (middle_eq : middle.rest = later ++ left)
    (allowed : lookahead.Allows middle.rest (later ++ right)) :
    ∃ added, before.Adds middle added ∧
      parser twin = .ok value (twin.past (later ++ right) added) ∧
      State.Twin later left right middle (twin.past (later ++ right) added) := by
  have leads := stop_of_ok run ▸ foresees.leads before
  have part : State.Twin read (stop parser before).rest (later ++ right) before twin := by
    rw [stop_of_ok run, middle_eq]
    exact twin_of.part
  have follows : Follows lookahead (parser before) (later ++ right) := by rwa [run]
  obtain ⟨added, adds, twin_run⟩ := foresees.carries small part follows
  rw [stop_of_ok run] at adds
  rw [run] at twin_run
  exact ⟨added, adds, twin_run, twin_of.past_twin leads middle_eq added⟩

/-- On a twin, a reader fails in the same way if the next token is the same. -/
theorem carries_error (foresees : Foresees room tolerated lookahead parser unfinished)
    {before after twin : State} {error : SyntaxError} {read right : List Token}
    (small : before.rest.length < room) (run : parser before = .error error after)
    (twin_of : State.Twin read after.rest right before twin)
    (same : right.head? = after.rest.head?) :
    ∃ added, before.Adds after added ∧ parser twin = .error error (twin.past right added) := by
  have stopped : State.Twin read (stop parser before).rest right before twin := by
    rwa [stop_of_error run]
  have follows : Follows lookahead (parser before) right := by rwa [run]
  obtain ⟨added, adds, twin_run⟩ := foresees.carries small stopped follows
  rw [stop_of_error run] at adds
  rw [run] at twin_run
  exact ⟨added, adds, twin_run⟩

/-- A run at the start of some tokens is the same where other tokens follow that the reader does
not mind, and where errors were reported before. -/
theorem run_append (foresees : Foresees room tolerated lookahead parser unfinished)
    (start state : State) {following : List Token} (small : start.rest.length < room)
    (fresh : start.errors = []) (rest_eq : state.rest = start.rest ++ following)
    (loopDepth_eq : state.loopDepth = start.loopDepth)
    (functionDepth_eq : state.functionDepth = start.functionDepth)
    (follows : Follows lookahead (parser start) ((stop parser start).rest ++ following)) :
    parser state = inState (parser start)
      (state.past ((stop parser start).rest ++ following) (stop parser start).errors) := by
  obtain ⟨read, start_eq⟩ := (foresees.leads start).rest_suffix
  have twin_of : State.Twin read (stop parser start).rest
      ((stop parser start).rest ++ following) start state :=
    ⟨start_eq.symm, by rw [rest_eq, ← List.append_assoc, start_eq], loopDepth_eq, functionDepth_eq⟩
  obtain ⟨added, adds, run⟩ := foresees.carries small twin_of follows
  have errors_eq := adds.errors_eq
  rw [fresh, List.nil_append] at errors_eq
  rwa [errors_eq]

end Foresees

/-- A reader that takes a token whenever it gives a value. -/
structure Eats (parser : Parser α) : Prop where
  shorter : ∀ {before after : State} {value : α}, parser before = .ok value after →
    after.rest.length < before.rest.length

section Sequence

variable {lookahead other : Lookahead} {parser : Parser α} {next : α → Parser β}
  {described : Surroundings → List Token → List Token → α → Prop}
  {unfinished : Surroundings → List Token → Prop}
  {unfinishedNext : α → Surroundings → List Token → Prop}

/-- Two readers in a row, where the first one minds no more than it is sure to find behind its
tokens: `hands` says that the second one keeps it there. -/
theorem Foresees.bind_of {later : α → Nat}
    (first : Foresees room tolerated other parser unfinished)
    (reads : ∀ {before after : State} {value : α}, parser before = .ok value after →
      (∀ error ∈ after.errors, tolerated error.cause) →
      ∃ tokens, before.rest = tokens ++ after.rest ∧
        described before.surroundings tokens after.rest value)
    (second : ∀ value, Foresees (later value) tolerated lookahead (next value)
      (unfinishedNext value))
    (fits : ∀ {before after : State} {value : α}, parser before = .ok value after →
      before.rest.length < room → after.rest.length < later value)
    (hands : ∀ {value : α} {middle : State} {read right : List Token},
      middle.rest = read ++ (stop (next value) middle).rest →
      Follows lookahead (next value middle) right →
      other.Allows middle.rest (read ++ right)) :
    Foresees room tolerated lookahead (parser >>= next) fun surroundings read =>
      unfinished surroundings read ∨
        ∃ value left right rest, read = left ++ right ∧
          described surroundings left (right ++ rest) value ∧
          unfinishedNext value surroundings right where
  leads := leads_bind first.leads fun value => (second value).leads
  located := by
    intro before after error small run
    cases first_run : parser before with
    | error same middle =>
        rw [bind_of_error first_run] at run
        cases run
        exact first.located small first_run
    | ok value middle =>
        rw [bind_of_ok first_run] at run
        exact (second value).located (fits first_run small) run
  carries := by
    intro before twin read right small twin_of follows
    cases first_run : parser before with
    | error error middle =>
        have bind_run : (parser >>= next) before = .error error middle := bind_of_error first_run
        rw [stop_of_error bind_run] at twin_of ⊢
        rw [bind_run] at follows ⊢
        obtain ⟨added, adds, run⟩ := first.carries_error small first_run twin_of follows
        exact ⟨added, adds, bind_of_error run⟩
    | ok value middle =>
        have bind_run : (parser >>= next) before = next value middle := bind_of_ok first_run
        have first_leads := stop_of_ok first_run ▸ first.leads before
        have second_leads := (second value).leads middle
        rw [stop_bind_of_ok first_run] at twin_of ⊢
        rw [bind_run] at follows ⊢
        obtain ⟨first_read, later_read, rfl, middle_eq⟩ :=
          twin_of.exists_parts first_leads.rest_suffix second_leads.rest_suffix
        obtain ⟨added, adds, run, later_twin⟩ :=
          first.carries_ok small first_run twin_of middle_eq (hands middle_eq follows)
        obtain ⟨more, later_adds, later_run⟩ :=
          (second value).carries (fits first_run small) later_twin follows
        refine ⟨added ++ more, adds.trans later_adds second_leads, ?_⟩
        rw [bind_of_ok run, later_run, State.past_past]
  stalls := by
    intro before error small quiet fault
    have second_leads (value : α) := (second value).leads
    rcases (firstFault_bind_iff second_leads).mp fault with
      first_fault | ⟨value, middle, first_run, middle_quiet, later_fault⟩
    · obtain ⟨read, left, stalls, holds⟩ := first.stalls small quiet first_fault
      refine ⟨read, left, ⟨stalls.rest_eq, stalls.token_eq, ?_⟩, .inl holds⟩
      intro twin right twin_of twin_quiet same
      exact (firstFault_bind_iff second_leads).mpr (.inl (stalls.again twin_of twin_quiet same))
    · obtain ⟨later_read, left, stalls, holds⟩ :=
        (second value).stalls (fits first_run small) middle_quiet later_fault
      obtain ⟨first_read, before_eq, first_holds⟩ := reads first_run middle_quiet
      have first_leads := stop_of_ok first_run ▸ first.leads before
      rw [first_leads.surroundings_eq] at holds
      rw [stalls.rest_eq] at first_holds
      refine ⟨first_read ++ later_read, left, ⟨?_, stalls.token_eq, ?_⟩,
        .inr ⟨value, first_read, later_read, left, rfl, first_holds, holds⟩⟩
      · rw [before_eq, stalls.rest_eq, List.append_assoc]
      intro twin right twin_of twin_quiet same
      have allowed : other.Allows middle.rest (later_read ++ right) := by
        rw [stalls.rest_eq]
        exact other.allows_of_head?_eq (head?_append_eq same later_read)
      obtain ⟨added, adds, run, later_twin⟩ :=
        first.carries_ok small first_run twin_of stalls.rest_eq allowed
      have later_quiet : ∀ other ∈ (twin.past (later_read ++ right) added).errors,
          tolerated other.cause := by
        intro other other_mem
        rcases List.mem_append.mp other_mem with other_mem | other_mem
        · exact twin_quiet other other_mem
        · exact middle_quiet other (by simp [adds.errors_eq, other_mem])
      exact (firstFault_bind_iff second_leads).mpr
        (.inr ⟨value, _, run, later_quiet, stalls.again later_twin later_quiet same⟩)

/-- Two readers in a row that mind the same. -/
theorem Foresees.bind (first : Foresees room tolerated lookahead parser unfinished)
    (reads : Reads tolerated parser described)
    (second : ∀ value, Foresees room tolerated lookahead (next value) (unfinishedNext value)) :
    Foresees room tolerated lookahead (parser >>= next) fun surroundings read =>
      unfinished surroundings read ∨
        ∃ value left right rest, read = left ++ right ∧
          described surroundings left (right ++ rest) value ∧
          unfinishedNext value surroundings right := by
  apply first.bind_of reads.described_of_ok second
  · intro before after value run small
    exact Nat.lt_of_le_of_lt (reads.leads_of_ok run).length_le small
  · intro value middle read right middle_eq follows
    rw [middle_eq]
    cases run : next value middle with
    | ok result after =>
        rw [run] at follows
        rw [stop_of_ok run]
        exact Lookahead.Allows.append follows read
    | error error after =>
        rw [run] at follows
        rw [stop_of_error run]
        exact lookahead.allows_of_head?_eq (head?_append_eq follows read)

/-- Two readers in a row, where the second one takes the token that the first one minds. -/
theorem Foresees.bind_eats (first : Foresees room tolerated other parser unfinished)
    (reads : Reads tolerated parser described)
    (second : ∀ value, Foresees room tolerated lookahead (next value) (unfinishedNext value))
    (eats : ∀ value, Eats (next value)) :
    Foresees room tolerated lookahead (parser >>= next) fun surroundings read =>
      unfinished surroundings read ∨
        ∃ value left right rest, read = left ++ right ∧
          described surroundings left (right ++ rest) value ∧
          unfinishedNext value surroundings right := by
  apply first.bind_of reads.described_of_ok second
  · intro before after value run small
    exact Nat.lt_of_le_of_lt (reads.leads_of_ok run).length_le small
  · intro value middle read right middle_eq follows
    apply other.allows_of_head?_eq
    rw [middle_eq]
    cases run : next value middle with
    | ok result after =>
        have shorter := (eats value).shorter run
        rw [middle_eq, stop_of_ok run, List.length_append] at shorter
        cases read with
        | nil => simp at shorter
        | cons => rfl
    | error error after =>
        rw [run] at follows
        rw [stop_of_error run]
        exact head?_append_eq follows read

end Sequence

section Idle

variable {lookahead : Lookahead}

theorem State.Twin.eq_nil {read right : List Token} {before twin : State}
    (twin_of : State.Twin read before.rest right before twin) : read = [] := by
  have same := congrArg List.length twin_of.rest_eq
  rw [List.length_append] at same
  exact List.eq_nil_of_length_eq_zero (by omega)

theorem State.Twin.past_self {right : List Token} {before twin : State}
    (twin_of : State.Twin [] before.rest right before twin) : twin.past right [] = twin := by
  rw [State.past, List.append_nil, ← List.nil_append right, ← twin_of.twin_rest_eq]

theorem foresees_pure (value : α) :
    Foresees room tolerated lookahead (pure value) fun _ _ => False where
  leads := State.Leads.refl
  located := by
    intro before after error small run
    cases run
  carries := by
    intro before twin read right small twin_of follows
    obtain rfl := State.Twin.eq_nil twin_of
    refine ⟨[], .refl before, ?_⟩
    rw [State.Twin.past_self twin_of]
    rfl
  stalls := by
    intro before error small quiet fault
    exact absurd fault (not_firstFault rfl quiet)

theorem foresees_fail (cause : SyntaxError.Cause) :
    Foresees room tolerated lookahead (fail cause : Parser α) fun _ read => read = [] where
  leads := State.Leads.refl
  located := by
    intro before after error small run
    cases run
    rfl
  carries := by
    intro before twin read right small twin_of follows
    obtain rfl := State.Twin.eq_nil twin_of
    refine ⟨[], .refl before, ?_⟩
    have same : right.head? = before.rest.head? := follows
    rw [State.Twin.past_self twin_of, fail, twin_of.twin_rest_eq, List.nil_append, same]
    rfl
  stalls := by
    rintro before error small quiet (⟨run, _⟩ | ⟨errors_eq, _, fault⟩)
    · cases run
      refine ⟨[], before.rest, ⟨rfl, rfl, ?_⟩, rfl⟩
      intro twin right twin_of twin_quiet same
      refine .raised ?_ twin_quiet
      rw [fail, twin_of.twin_rest_eq, List.nil_append, same]
    · exact absurd (quiet error (errors_eq ▸ by simp)) fault

/-- A look at the next token. -/
theorem foresees_look {look : Parser α} (view : Option Token → α)
    (looks : ∀ state : State, look state = .ok (view state.rest.head?) state) :
    Foresees room tolerated .anything look fun _ _ => False where
  leads := by
    intro before
    rw [stop_of_ok (looks before)]
    exact .refl before
  located := by
    intro before after error small run
    rw [looks] at run
    cases run
  carries := by
    intro before twin read right small twin_of follows
    rw [stop_of_ok (looks before)] at twin_of ⊢
    rw [looks] at follows
    obtain rfl := State.Twin.eq_nil twin_of
    refine ⟨[], .refl before, ?_⟩
    have same : right.head? = before.rest.head? := follows
    rw [State.Twin.past_self twin_of, looks, looks, twin_of.twin_rest_eq, List.nil_append, same]
    rfl
  stalls := by
    intro before error small quiet fault
    exact absurd fault (not_firstFault (looks before) quiet)

theorem foresees_check (kind : Token.Kind) :
    Foresees room tolerated .anything (check kind) fun _ _ => False :=
  foresees_look (fun next => next.any (·.kind = kind)) fun _ => rfl

theorem foresees_atEnd : Foresees room tolerated .anything atEnd fun _ _ => False :=
  foresees_look (fun next => !next.isSome) fun state => by
    cases rest_eq : state.rest <;> simp [atEnd, rest_eq]

theorem foresees_report {error : SyntaxError} (allowed : tolerated error.cause)
    (located : error.token.isSome) :
    Foresees room tolerated lookahead (report error) fun _ _ => False where
  leads := (@reads_report strict error).leads
  located := by
    intro before after other small run
    cases run
  carries := by
    intro before twin read right small twin_of follows
    have twin_here : State.Twin read before.rest right before twin := twin_of
    obtain rfl := twin_here.eq_nil
    refine ⟨[error], ⟨rfl, ?_⟩, ?_⟩
    · intro other other_mem at_end
      rw [List.mem_singleton.mp other_mem] at at_end
      rw [at_end] at located
      cases located
    · have rest_eq : twin.rest = right := twin_of.twin_rest_eq
      rw [← rest_eq]
      rfl
  stalls := by
    intro before other small quiet fault
    exact absurd fault (not_firstFault_report allowed quiet)

theorem foresees_reportHere {cause : SyntaxError.Cause} (allowed : tolerated cause) :
    Foresees room tolerated .anything (reportHere cause) fun _ _ => False where
  leads := (@reads_reportHere strict cause).leads
  located := by
    intro before after other small run
    cases run
  carries := by
    intro before twin read right small twin_of follows
    have twin_here : State.Twin read before.rest right before twin := twin_of
    obtain rfl := twin_here.eq_nil
    refine ⟨[⟨cause, before.rest.head?⟩], ⟨rfl, ?_⟩, ?_⟩
    · intro other other_mem at_end
      rw [List.mem_singleton.mp other_mem] at at_end
      exact List.head?_eq_none_iff.mp at_end
    · have rest_eq : twin.rest = right := twin_of.twin_rest_eq
      have same : right.head? = before.rest.head? := follows
      rw [reportHere, rest_eq, same, ← rest_eq]
      rfl
  stalls := by
    intro before other small quiet fault
    have same : reportHere cause before = report ⟨cause, before.rest.head?⟩ before := rfl
    exact absurd (fault.congr same) (not_firstFault_report allowed quiet)

end Idle

section Tokens

variable {lookahead : Lookahead} {classify : Token → Option γ} {next : Option γ → Parser β}

/-- What follows the acceptance of a token. If the token is not there, it is not behind what is
read instead either: this is what `refuses` says. -/
theorem Foresees.accept_bind_of {hit : γ → Surroundings → List Token → Prop}
    {miss : Surroundings → List Token → Prop}
    (taken : ∀ value, Foresees room tolerated lookahead (next (some value)) (hit value))
    (left : Foresees (room + 1) tolerated lookahead (next none) miss)
    (refuses : ∀ {state : State} {read right : List Token},
      (∀ token ∈ state.rest.head?, classify token = none) →
      state.rest = read ++ (stop (next none) state).rest →
      Follows lookahead (next none state) right →
      ∀ token ∈ (read ++ right).head?, classify token = none) :
    Foresees (room + 1) tolerated lookahead (accept classify >>= next) fun surroundings read =>
      (∃ token value others, read = token :: others ∧ classify token = some value ∧
        hit value surroundings others) ∨
      miss surroundings read where
  leads := leads_bind (@reads_accept _ strict classify).leads fun found => by
    cases found with
    | none => exact left.leads
    | some value => exact (taken value).leads
  located := by
    intro before after error small run
    rcases accept_cases classify before with
      ⟨token, rest, value, rest_eq, _, accepted⟩ | ⟨_, accepted⟩
    · rw [rest_eq, List.length_cons] at small
      rw [bind_of_ok accepted] at run
      exact (taken value).located (Nat.lt_of_succ_lt_succ small) run
    · rw [bind_of_ok accepted] at run
      exact left.located small run
  carries := by
    intro before twin read right small twin_of follows
    rcases accept_cases classify before with
      ⟨token, rest, value, rest_eq, classified, accepted⟩ | ⟨refused, accepted⟩
    · have run_eq : (accept classify >>= next) before = next (some value) { before with rest } :=
        bind_of_ok accepted
      have rest_suffix := ((taken value).leads { before with rest }).rest_suffix
      rw [rest_eq, List.length_cons] at small
      rw [stop_bind_of_ok accepted] at twin_of ⊢
      rw [run_eq] at follows ⊢
      obtain ⟨first, others, rfl, others_eq⟩ :=
        twin_of.exists_parts ⟨[token], rest_eq.symm⟩ rest_suffix
      obtain rfl : first = [token] := by
        apply (List.append_left_inj rest).mp
        rw [List.singleton_append, ← rest_eq, twin_of.rest_eq, List.append_assoc, ← others_eq]
      obtain ⟨added, adds, run⟩ := (taken value).carries (Nat.lt_of_succ_lt_succ small)
        (twin_of.tail rest_eq) follows
      refine ⟨added, ⟨adds.errors_eq, adds.located⟩, ?_⟩
      rw [bind_of_ok (accept_some twin_of.twin_rest_eq classified)]
      exact run
    · have run_eq : (accept classify >>= next) before = next none before := bind_of_ok accepted
      rw [stop_bind_of_ok accepted] at twin_of ⊢
      rw [run_eq] at follows ⊢
      have twin_refused := refuses refused twin_of.rest_eq follows
      rw [← twin_of.twin_rest_eq] at twin_refused
      rw [bind_of_ok (accept_none twin_refused)]
      exact left.carries small twin_of follows
  stalls := by
    intro before error small quiet fault
    rcases accept_cases classify before with
      ⟨token, rest, value, rest_eq, classified, accepted⟩ | ⟨refused, accepted⟩
    · rw [rest_eq, List.length_cons] at small
      have later_fault : FirstFault tolerated (next (some value)) { before with rest } error :=
        fault.congr (bind_of_ok accepted)
      have later_small : ({ before with rest } : State).rest.length < room :=
        Nat.lt_of_succ_lt_succ small
      obtain ⟨others, behind, stalls, holds⟩ := (taken value).stalls later_small quiet later_fault
      refine ⟨token :: others, behind, ⟨?_, stalls.token_eq, ?_⟩,
        .inl ⟨token, value, others, rfl, classified, holds⟩⟩
      · rw [rest_eq, List.cons_append]
        exact congrArg (token :: ·) stalls.rest_eq
      intro twin right twin_of twin_quiet same
      exact (stalls.again (twin_of.tail rest_eq) twin_quiet same).congr
        (bind_of_ok (accept_some twin_of.twin_rest_eq classified)).symm
    · obtain ⟨read, behind, stalls, holds⟩ := left.stalls small quiet
        (fault.congr (bind_of_ok accepted))
      refine ⟨read, behind, ⟨stalls.rest_eq, stalls.token_eq, ?_⟩, .inr holds⟩
      intro twin right twin_of twin_quiet same
      have twin_refused : ∀ token ∈ twin.rest.head?, classify token = none := by
        rwa [twin_of.twin_rest_eq, head?_append_eq same, ← stalls.rest_eq]
      exact (stalls.again twin_of twin_quiet same).congr
        (bind_of_ok (accept_none twin_refused)).symm

end Tokens

end Scriptlet.Parser
