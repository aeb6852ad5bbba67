import Scriptlet.Proofs.Parser.StatementReading

/-!
# Bounds of readers do not matter

Nesting and repetition are bounded by the number of tokens left. The bounds are never reached:
every nested expression or statement starts after a token of the outer one, and every step of a
repetition reads a token. So readers satisfy the equations that they would satisfy without bounds.

Readers of nested trees are compared on the states with few tokens left, since it is only there
that a bound is large enough.
-/

namespace Scriptlet.Parser

open Grammar

variable {α β γ : Type}

/-- Two readers do the same where at most some number of tokens is left, and put no token back. -/
def Agree (room : Nat) (reader other : Parser α) : Prop :=
  ∀ state : State, state.rest.length ≤ room →
    reader state = other state ∧ (stop reader state).rest.length ≤ state.rest.length

section

variable {room : Nat} {reader other : Parser α}

theorem agree_self {described : Surroundings → List Token → List Token → α → Prop}
    (reads : Reads strict reader described) : Agree room reader reader :=
  fun state _ => ⟨rfl, (reads.leads state).length_le⟩

theorem Agree.bind (first : Agree room reader other) {next otherNext : α → Parser β}
    (second : ∀ value, Agree room (next value) (otherNext value)) :
    Agree room (reader >>= next) (other >>= otherNext) := by
  intro state small
  obtain ⟨same, shorter⟩ := first state small
  cases run : reader state with
  | ok value middle =>
      rw [stop_of_ok run] at shorter
      obtain ⟨later_same, later_shorter⟩ := second value middle (Nat.le_trans shorter small)
      rw [stop, bind_of_ok run, bind_of_ok (same.symm.trans run)]
      exact ⟨later_same, Nat.le_trans later_shorter shorter⟩
  | error error after =>
      rw [stop_of_error run] at shorter
      rw [stop, bind_of_error run, bind_of_error (same.symm.trans run)]
      exact ⟨rfl, shorter⟩

theorem agree_pure (value : α) : Agree room (pure value) (pure value) :=
  agree_self (reads_pure value)

theorem agree_expectSymbol (kind : Token.Kind) (place : SyntaxError.Place) :
    Agree room (expectSymbol kind place) (expectSymbol kind place) :=
  agree_self (reads_expectSymbol kind place)

theorem Agree.map (agree : Agree room reader other) (wrap : α → β) :
    Agree room (wrap <$> reader) (wrap <$> other) := by
  rw [map_eq_pure_bind, map_eq_pure_bind]
  exact agree.bind fun value => agree_pure (wrap value)

/-- A reader that comes after a token has fewer tokens left. -/
theorem agree_accept_bind {classify : Token → Option γ} {next otherNext : Option γ → Parser α}
    (taken : ∀ value, Agree room (next (some value)) (otherNext (some value)))
    (left : Agree (room + 1) (next none) (otherNext none)) :
    Agree (room + 1) (accept classify >>= next) (accept classify >>= otherNext) := by
  intro state small
  rcases accept_cases classify state with ⟨token, rest, value, rest_eq, _, run⟩ | ⟨_, run⟩
  · rw [rest_eq, List.length_cons] at small
    obtain ⟨same, shorter⟩ := taken value { state with rest } (Nat.le_of_succ_le_succ small)
    rw [stop, bind_of_ok run, bind_of_ok run, rest_eq, List.length_cons]
    exact ⟨same, Nat.le_succ_of_le shorter⟩
  · rw [stop, bind_of_ok run, bind_of_ok run]
    exact left state small

section

variable {step otherStep : α → Parser (Option α)}

theorem agree_iterate (steps : ∀ value, Agree room (step value) (otherStep value))
    (bound : List Token) (value : α) :
    Agree room (iterate step bound value) (iterate otherStep bound value) := by
  induction bound generalizing value with
  | nil => exact agree_pure value
  | cons _ bound ih =>
      apply (steps value).bind
      rintro (_ | next)
      · exact agree_pure value
      · exact ih next

theorem agree_loop (steps : ∀ value, Agree room (step value) (otherStep value)) (value : α) :
    Agree room (loop step value) (loop otherStep value) :=
  fun state => agree_iterate steps state.rest value state

end

theorem agree_many {item otherItem : Parser (Option α)} (items : Agree room item otherItem) :
    Agree room (many item) (many otherItem) := by
  have collected : Agree room (loop _ []) (loop _ []) :=
    agree_loop (fun earlier => items.bind fun found => agree_pure (found.map (· :: earlier))) []
  exact collected.bind fun reversed => agree_pure reversed.reverse

theorem agree_member (excess : SyntaxError.Cause) (items : Agree room reader other)
    (earlier : List α) :
    Agree room (member excess reader earlier) (member excess other earlier) := by
  have added : Agree room (reader >>= fun value => pure (value :: earlier))
      (other >>= fun value => pure (value :: earlier)) :=
    items.bind fun value => agree_pure (value :: earlier)
  unfold member
  split
  · exact (agree_self (reads_reportHere excess)).bind fun _ => added
  · exact added

theorem agree_separated (excess : SyntaxError.Cause) (items : Agree room reader other) :
    Agree room (separated excess reader) (separated excess other) := by
  apply (agree_member excess items []).bind
  intro first
  suffices collected : Agree room (loop _ first) (loop _ first) from
    collected.bind fun reversed => agree_pure reversed.reverse
  apply agree_loop
  intro earlier
  apply (agree_self (reads_accept _)).bind
  rintro (_ | comma)
  · exact agree_pure none
  · exact (agree_member excess items earlier).bind fun values => agree_pure (some values)

theorem agree_closedList (excess : SyntaxError.Cause) (place : SyntaxError.Place)
    (items : Agree room reader other) :
    Agree room (closedList excess place reader) (closedList excess place other) := by
  have close (values : List α) : Agree room
      (expectSymbol .rightParen place >>= fun paren => pure (values, paren))
      (expectSymbol .rightParen place >>= fun paren => pure (values, paren)) :=
    (agree_expectSymbol .rightParen place).bind fun paren => agree_pure (values, paren)
  apply (agree_self (reads_check .rightParen)).bind
  rintro (_ | _)
  · exact (agree_separated excess items).bind close
  · exact close []

theorem agree_inLoop (bodies : Agree room reader other) :
    Agree room (inLoop reader) (inLoop other) := by
  intro state small
  obtain ⟨same, shorter⟩ := bodies { state with loopDepth := state.loopDepth + 1 } small
  refine ⟨by simp only [inLoop, same], ?_⟩
  cases run : reader { state with loopDepth := state.loopDepth + 1 } <;>
    simpa only [stop, inLoop, run] using shorter

theorem agree_inFunction (bodies : Agree room reader other) :
    Agree room (inFunction reader) (inFunction other) := by
  intro state small
  obtain ⟨same, shorter⟩ := bodies
    { state with loopDepth := 0, functionDepth := state.functionDepth + 1 } small
  refine ⟨by simp only [inFunction, same], ?_⟩
  cases run : reader { state with loopDepth := 0, functionDepth := state.functionDepth + 1 } <;>
    simpa only [stop, inFunction, run] using shorter

theorem agree_recovering (parts : Agree room reader other) :
    Agree room (recovering reader) (recovering other) := by
  intro state small
  obtain ⟨same, shorter⟩ := parts state small
  refine ⟨by simp only [recovering, same], ?_⟩
  cases run : reader state with
  | ok value after => simpa only [stop, recovering, run] using shorter
  | error error after =>
      simp only [stop, recovering, run] at shorter ⊢
      exact Nat.le_trans (resume_suffix after.rest).length_le shorter

end

section Repetition

/-- The steps of a repetition read a token whenever they give something, and do nothing where no
token is left. -/
structure Advances (step : α → Parser (Option α)) : Prop where
  idle : ∀ (value : α) (state : State), state.rest = [] → step value state = .ok none state
  progress : ∀ {value next : α} {before after : State},
    step value before = .ok (some next) after → after.rest.length < before.rest.length

variable {step : α → Parser (Option α)}

theorem Advances.iterate_idle (advances : Advances step) (bound : List Token) (value : α)
    {state : State} (ended : state.rest = []) :
    iterate step bound value state = .ok value state := by
  cases bound with
  | nil => rfl
  | cons _ bound =>
      rw [iterate, bind_of_ok (advances.idle value state ended)]
      rfl

/-- Bounds that are large enough make no difference. -/
theorem Advances.iterate_eq (advances : Advances step) {bound other : List Token} (value : α)
    {state : State} (enough : state.rest.length ≤ bound.length)
    (also : state.rest.length ≤ other.length) :
    iterate step bound value state = iterate step other value state := by
  induction bound generalizing other value state with
  | nil =>
      have ended := List.eq_nil_of_length_eq_zero (Nat.le_zero.mp enough)
      rw [advances.iterate_idle _ _ ended, advances.iterate_idle _ _ ended]
  | cons _ bound ih =>
      cases other with
      | nil =>
          have ended := List.eq_nil_of_length_eq_zero (Nat.le_zero.mp also)
          rw [advances.iterate_idle _ _ ended, advances.iterate_idle _ _ ended]
      | cons _ other =>
          rw [iterate, iterate]
          cases run : step value state with
          | error error after => rw [bind_of_error run, bind_of_error run]
          | ok next middle =>
              rw [bind_of_ok run, bind_of_ok run]
              cases next with
              | none => rfl
              | some next =>
                  have shorter := advances.progress run
                  rw [List.length_cons] at enough also
                  exact ih next (by omega) (by omega)

/-- What a repetition does after a step. -/
def loopAfter (step : α → Parser (Option α)) (value : α) : Option α → Parser α
  | some next => loop step next
  | none => pure value

/-- A repetition is its first step and then, if the step gave something, the repetition again. -/
theorem Advances.loop_eq (advances : Advances step) (value : α) :
    loop step value = (step value >>= loopAfter step value) := by
  funext state
  cases rest_eq : state.rest with
  | nil =>
      rw [bind_of_ok (advances.idle value state rest_eq)]
      exact advances.iterate_idle state.rest value rest_eq
  | cons token rest =>
      change iterate step state.rest value state = _
      rw [rest_eq, iterate]
      cases run : step value state with
      | error error after => rw [bind_of_error run, bind_of_error run]
      | ok next middle =>
          rw [bind_of_ok run, bind_of_ok run]
          cases next with
          | none => rfl
          | some next =>
              have shorter := advances.progress run
              rw [rest_eq, List.length_cons] at shorter
              exact advances.iterate_eq next (Nat.le_of_lt_succ shorter) (Nat.le_refl _)

/-- Steps that start by taking a token. -/
theorem advances_accept {classify : Token → Option γ} {next : α → Option γ → Parser (Option α)}
    (nothing : ∀ value, next value none = pure none)
    (keeps : ∀ value taken (state : State), state.Leads (stop (next value (some taken)) state)) :
    Advances fun value => accept classify >>= next value where
  idle := by
    intro value state ended
    rw [bind_of_ok (accept_nil ended), nothing]
    rfl
  progress := by
    intro value after_value before after run
    rcases accept_cases classify before with
      ⟨token, rest, taken, rest_eq, _, acceptRun⟩ | ⟨_, acceptRun⟩
    · rw [bind_of_ok acceptRun] at run
      have shorter := (keeps value taken { before with rest }).length_le
      rw [stop_of_ok run] at shorter
      rw [rest_eq, List.length_cons]
      exact Nat.lt_succ_of_le shorter
    · rw [bind_of_ok acceptRun, nothing] at run
      cases run

/-- What is said of steps, for the items of a sequence. -/
structure ItemAdvances (item : Parser (Option α)) : Prop where
  idle : ∀ state : State, state.rest = [] → item state = .ok none state
  progress : ∀ {value : α} {before after : State},
    item before = .ok (some value) after → after.rest.length < before.rest.length

variable {item : Parser (Option α)}

/-- One step of collecting items. -/
def collect (item : Parser (Option α)) (earlier : List α) : Parser (Option (List α)) :=
  item >>= fun found => pure (found.map (· :: earlier))

theorem many_eq_loop (item : Parser (Option α)) :
    many item = (loop (collect item) [] >>= fun reversed => pure reversed.reverse) :=
  rfl

theorem collect_bind (item : Parser (Option α)) (earlier : List α)
    (next : Option (List α) → Parser β) :
    (collect item earlier >>= next) = (item >>= fun found => next (found.map (· :: earlier))) := by
  simp only [collect, bind_assoc, pure_bind]

/-- What was collected before makes no difference to what is collected. -/
theorem iterate_collect (item : Parser (Option α)) (bound : List Token) (earlier : List α) :
    iterate (collect item) bound earlier = (· ++ earlier) <$> iterate (collect item) bound [] := by
  induction bound generalizing earlier with
  | nil => simp [iterate]
  | cons _ bound ih =>
      simp only [iterate, collect_bind, map_bind]
      apply congrArg
      funext found
      cases found with
      | none => simp
      | some value =>
          simp only [Option.map_some]
          rw [ih (value :: earlier), ih [value]]
          simp

theorem loop_collect (item : Parser (Option α)) (earlier : List α) :
    loop (collect item) earlier = (· ++ earlier) <$> loop (collect item) [] := by
  funext state
  exact congrFun (iterate_collect item state.rest earlier) state

namespace ItemAdvances

theorem advances_collect (advances : ItemAdvances item) : Advances (collect item) where
  idle := by
    intro earlier state ended
    rw [collect, bind_of_ok (advances.idle state ended)]
    rfl
  progress := by
    intro earlier next before after run
    rw [collect] at run
    cases itemRun : item before with
    | error error middle =>
        rw [bind_of_error itemRun] at run
        cases run
    | ok found middle =>
        rw [bind_of_ok itemRun] at run
        cases found with
        | none => cases run
        | some value =>
            cases run
            exact advances.progress itemRun

/-- A sequence of items is its first item and then, if there is one, the sequence of the others. -/
theorem many_eq (advances : ItemAdvances item) :
    many item = (item >>= fun found =>
      match found with
      | some value => (value :: ·) <$> many item
      | none => pure []) := by
  have unrolled := advances.advances_collect.loop_eq []
  rw [collect_bind] at unrolled
  conv => lhs; rw [many_eq_loop, unrolled, bind_assoc]
  apply congrArg
  funext found
  cases found with
  | none => rfl
  | some value =>
      simp only [Option.map_some, loopAfter]
      rw [loop_collect item [value], many_eq_loop]
      simp

end ItemAdvances

end Repetition

end Scriptlet.Parser
