import Scriptlet.Proofs.Evaluation.Compositional
import Scriptlet.Proofs.Evaluation.Fuel

/-!
# Output that is cut off

Two runs of one program are compared, from states that differ only in how much the output takes:
everything, or a limited number of bytes. As long as what is printed fits they do the same. The
first text that does not fit is printed as far as it does, and ends the limited run in the state in
which the other run is when it starts to print this text.
-/

namespace Scriptlet

open Evaluation

namespace Interpreter

/-- The state with a limit on what can still be printed, or with none. -/
def withRoom (state : Interpreter) (room : Option Nat) : Interpreter :=
  { state with output := { state.output with room } }

end Interpreter

/-- All of a text is within a limit that is no less than its size. -/
theorem extract_of_size_le {bytes : ByteArray} {limit : Nat} (fits : bytes.size ≤ limit) :
    bytes.extract 0 limit = bytes := by
  rw [← Nat.max_eq_left fits, ByteArray.extract_zero_max_size]

theorem extract_append_of_le {bytes others : ByteArray} {limit : Nat}
    (within_first : limit ≤ bytes.size) :
    (bytes ++ others).extract 0 limit = bytes.extract 0 limit := by
  rw [ByteArray.extract_append, Nat.sub_eq_zero_of_le within_first, Nat.zero_sub,
    ByteArray.extract_same, ByteArray.append_empty]

theorem extract_append_of_ge {bytes others : ByteArray} {limit : Nat}
    (beyond_first : bytes.size ≤ limit) :
    (bytes ++ others).extract 0 limit = bytes ++ others.extract 0 (limit - bytes.size) := by
  rw [ByteArray.extract_append, extract_of_size_le beyond_first, Nat.zero_sub]

/-- A step prints a text of which only a part fits when a run that starts with some text on its
output can print a limited number of bytes. -/
def Step.Exceeds (step : Step) (written : ByteArray) (limit : Nat)
    (keyword : Token.OfKind .printWord) : Prop :=
  ∃ value earlier, step.action = .print keyword value ∧
    step.before.state.output.written = written ++ earlier ∧ earlier.size ≤ limit ∧
      limit < earlier.size + (value.text ++ "\n").utf8ByteSize

/-- What a run from a state without a limit prints, and how the runs with limits compare to it. -/
structure Record.Cuts {α : Type} (state : Interpreter) (record : Record α)
    (limited : Nat → Outcome α) (printed : ByteArray) : Prop where
  output_eq : (Outcome.state record.outcome).output
    = ⟨state.output.written ++ printed, none, state.output.refusal⟩
  callDepth_eq : (Outcome.state record.outcome).callDepth = state.callDepth
  fits : ∀ limit, printed.size ≤ limit →
    limited limit = Outcome.withState (·.withRoom (some (limit - printed.size))) record.outcome
  exceeds : ∀ limit, limit < printed.size → ∃ step ∈ record.steps, ∃ keyword,
    step.Exceeds state.output.written limit keyword ∧
      limited limit = .error (.error (.output keyword state.output.refusal))
        (step.before.state.withSurface
          ⟨state.output.written ++ printed.extract 0 limit, some 0, state.output.refusal⟩
          state.callDepth)

namespace Recorded

/-- Limits on the output only cut runs off. -/
def Cut {α : Type} (computation : Recorded α) : Prop :=
  ∀ state : Interpreter, state.output.room = none → ∃ printed,
    (computation.run state).Cuts state (fun limit => computation.plain (state.withRoom (some limit)))
      printed

variable {α β : Type}

/-- Computations that print nothing. -/
theorem cuts_of_silent {state : Interpreter} {record : Record α} {limited : Nat → Outcome α}
    (unlimited : state.output.room = none)
    (output_eq : (Outcome.state record.outcome).output = state.output)
    (callDepth_eq : (Outcome.state record.outcome).callDepth = state.callDepth)
    (same : ∀ limit, limited limit
      = Outcome.withState (·.withRoom (some limit)) record.outcome) :
    record.Cuts state limited .empty where
  output_eq := by
    rw [output_eq, ByteArray.append_empty, ← unlimited]
  callDepth_eq := callDepth_eq
  fits limit _ := same limit
  exceeds limit exceeds := absurd exceeds (Nat.not_lt_zero limit)

theorem cut_pure (value : α) : Cut (pure value : Recorded α) := by
  intro state unlimited
  exact ⟨.empty, cuts_of_silent unlimited rfl rfl fun _ => rfl⟩

theorem cut_inStep {computation : Evaluation α} (quiet : Quiet computation) (action : Action) :
    Cut (inStep action computation) := by
  intro state unlimited
  refine ⟨.empty, cuts_of_silent unlimited (quiet.output_eq state) (quiet.callDepth_eq state) ?_⟩
  intro limit
  refine (quiet.indifferent state { state.output with room := some limit } state.callDepth).trans ?_
  apply Outcome.withState_congr
  simp only [Interpreter.withRoom, Interpreter.withSurface, quiet.output_eq state,
    ← quiet.callDepth_eq state]

section

variable (keyword : Token.OfKind .printWord) (value : Value) {state : Interpreter} {limit : Nat}

theorem print_of_unlimited (unlimited : state.output.room = none) :
    Evaluation.print keyword value state = .ok () { state with
      output := ⟨state.output.written ++ (value.text ++ "\n").toUTF8, none,
        state.output.refusal⟩ } := by
  simp only [Evaluation.print, Output.fits, Output.write, unlimited, Option.all_none, if_true]

theorem print_of_fits (fits : (value.text ++ "\n").toUTF8.size ≤ limit) :
    Evaluation.print keyword value (state.withRoom (some limit)) = .ok () { state with
      output := ⟨state.output.written ++ (value.text ++ "\n").toUTF8,
        some (limit - (value.text ++ "\n").toUTF8.size), state.output.refusal⟩ } := by
  have whole := extract_of_size_le fits
  rw [String.toUTF8_eq_toByteArray, String.size_toByteArray] at *
  simp only [Evaluation.print, Interpreter.withRoom, Output.fits, Output.write, Option.all_some,
    fits, decide_true, if_true, String.toUTF8_eq_toByteArray, whole]

theorem print_of_exceeds (exceeds : limit < (value.text ++ "\n").utf8ByteSize) :
    Evaluation.print keyword value (state.withRoom (some limit))
      = .error (.error (.output keyword state.output.refusal)) { state with
          output := ⟨state.output.written ++ (value.text ++ "\n").toUTF8.extract 0 limit, some 0,
            state.output.refusal⟩ } := by
  simp only [Evaluation.print, Interpreter.withRoom, Output.fits, Output.write, Option.all_some,
    Nat.not_le_of_lt exceeds, decide_false, Bool.false_eq_true, if_false,
    Nat.sub_eq_zero_of_le (Nat.le_of_lt exceeds)]
  rfl

end

theorem cut_print (keyword : Token.OfKind .printWord) (value : Value) :
    Cut (inStep (.print keyword value) (Evaluation.print keyword value)) := by
  intro state unlimited
  have printed := print_of_unlimited keyword value unlimited
  refine ⟨(value.text ++ "\n").toUTF8, ?_, ?_, ?_, ?_⟩
  · simp only [inStep, printed]
    rfl
  · simp only [inStep, printed]
    rfl
  · intro limit fits
    change Evaluation.print keyword value _ = Outcome.withState _ (Evaluation.print keyword value _)
    rw [print_of_fits keyword value fits, printed]
    rfl
  · intro limit exceeds
    rw [String.toUTF8_eq_toByteArray, String.size_toByteArray] at exceeds
    refine ⟨_, List.mem_singleton_self _, keyword, ⟨value, .empty, rfl, ?_, Nat.zero_le _, ?_⟩,
      print_of_exceeds keyword value exceeds⟩
    · exact ByteArray.append_empty.symm
    · exact Nat.lt_of_lt_of_le exceeds (Nat.le_add_left _ _)

theorem cut_deepen (paren : Token.OfKind .rightParen) {body : Recorded α} (body_cut : Cut body) :
    Cut (deepen paren body) := by
  intro state unlimited
  rcases Nat.lt_or_ge state.callDepth maxCallDepth with shallow | deep
  · obtain ⟨printed, cuts⟩ := body_cut state.entered unlimited
    have deepened : ∀ limit, (deepen paren body).plain (state.withRoom (some limit))
        = Outcome.withState Interpreter.left (body.plain (state.entered.withRoom (some limit))) := by
      intro limit
      rw [plain_deepen]
      exact deepen_of_lt shallow
    refine ⟨printed, ?_⟩
    rw [run_deepen_of_lt shallow]
    refine ⟨?_, ?_, ?_, ?_⟩
    · rw [Outcome.state_withState]
      exact cuts.output_eq
    · rw [Outcome.state_withState, Interpreter.left, cuts.callDepth_eq]
      rfl
    · intro limit fits
      rw [deepened, cuts.fits limit fits]
      cases (body.run state.entered).outcome <;> rfl
    · intro limit exceeds
      obtain ⟨step, step_mem, keyword, step_exceeds, ended⟩ := cuts.exceeds limit exceeds
      refine ⟨step.within paren, ?_, keyword, step_exceeds, ?_⟩
      · exact List.mem_cons_of_mem _ (List.mem_append_left _ (List.mem_map_of_mem step_mem))
      · rw [deepened, ended]
        rfl
  · refine ⟨.empty, ?_⟩
    rw [run_deepen_of_le deep]
    refine cuts_of_silent unlimited rfl rfl fun limit => ?_
    have limited_deep : maxCallDepth ≤ (state.withRoom (some limit)).callDepth := deep
    exact congrArg Record.outcome (run_deepen_of_le limited_deep)

theorem Cut.bind {computation : Recorded α} {next : α → Recorded β} (cut : Cut computation)
    (next_cut : ∀ value, Cut (next value)) : Cut (computation >>= next) := by
  intro state unlimited
  obtain ⟨printed, first⟩ := cut state unlimited
  simp only [plain_bind]
  rcases ended : computation.run state with ⟨⟨value, after⟩ | ⟨stop, after⟩, steps⟩
  · rw [ended] at first
    rw [run_bind_of_ok ended]
    have after_output : after.output
        = ⟨state.output.written ++ printed, none, state.output.refusal⟩ :=
      first.output_eq
    have after_depth : after.callDepth = state.callDepth := first.callDepth_eq
    obtain ⟨others, second⟩ := next_cut value after (by rw [after_output])
    refine ⟨printed ++ others, ?_, second.callDepth_eq.trans after_depth, ?_, ?_⟩
    · rw [second.output_eq, after_output, ByteArray.append_assoc]
    · intro limit fits
      rw [ByteArray.size_append] at fits
      rw [bind_of_ok (first.fits limit (by omega)), second.fits _ (by omega), Nat.sub_sub,
        ByteArray.size_append]
    · intro limit exceeds
      rcases Nat.lt_or_ge limit printed.size with early | late
      · obtain ⟨step, step_mem, keyword, step_exceeds, stopped⟩ := first.exceeds limit early
        refine ⟨step, List.mem_append_left _ step_mem, keyword, step_exceeds, ?_⟩
        rw [bind_of_error stopped, extract_append_of_le (Nat.le_of_lt early)]
      · rw [ByteArray.size_append] at exceeds
        obtain ⟨step, step_mem, keyword, ⟨text, earlier, action_eq, written_eq, earlier_fits,
          too_long⟩, stopped⟩ := second.exceeds (limit - printed.size) (by omega)
        refine ⟨step, List.mem_append_right _ step_mem, keyword,
          ⟨text, printed ++ earlier, action_eq, ?_, ?_, ?_⟩, ?_⟩
        · rw [written_eq, after_output, ByteArray.append_assoc]
        · rw [ByteArray.size_append]
          omega
        · rw [ByteArray.size_append]
          omega
        · rw [bind_of_ok (first.fits limit late), stopped, after_output, after_depth,
            ByteArray.append_assoc, extract_append_of_ge late]
  · rw [ended] at first
    rw [run_bind_of_error ended]
    refine ⟨printed, first.output_eq, first.callDepth_eq, ?_, ?_⟩
    · intro limit fits
      exact bind_of_error (first.fits limit fits)
    · intro limit exceeds
      obtain ⟨step, step_mem, keyword, step_exceeds, stopped⟩ := first.exceeds limit exceeds
      exact ⟨step, step_mem, keyword, step_exceeds, bind_of_error stopped⟩

theorem compositional_cut : Compositional Cut where
  pure := cut_pure
  bind := Cut.bind
  basic quiet := cut_inStep quiet .basic
  print := cut_print
  call paren callee arguments _ body_cut :=
    (cut_inStep (quiet_resolve paren callee arguments.length) _).bind
      fun callable => cut_deepen paren (body_cut callable)

end Recorded

namespace Interpreter

/-- The record of a run without a limit has its outcome. If what the run prints fits, a run with a
limit ends in the same way, with that much less room. If it does not, whether or not the run without
a limit comes to an end, the limited run fails at the first `print` whose text does not fit, with as
much printed as there is room for and everything else as it was when the other run started to print
this text. -/
theorem output_limit_cuts (fuel : Nat) (program : List Stmt) (state : Interpreter) :
    ((Recorded.interpret fuel program).run (state.withRoom none)).outcome
        = interpret fuel program (state.withRoom none) ∧
      ∃ printed, (Outcome.state (interpret fuel program (state.withRoom none))).output.written
          = state.output.written ++ printed ∧
        ∀ limit,
          (printed.size ≤ limit → interpret fuel program (state.withRoom (some limit))
            = Outcome.withState (·.withRoom (some (limit - printed.size)))
                (interpret fuel program (state.withRoom none))) ∧
          (limit < printed.size →
            ∃ step ∈ ((Recorded.interpret fuel program).run (state.withRoom none)).steps,
              ∃ keyword, step.Exceeds state.output.written limit keyword ∧
                ∀ more, fuel ≤ more → interpret more program (state.withRoom (some limit))
                  = .error (.error (.output keyword state.output.refusal))
                      (step.before.state.withSurface
                        ⟨state.output.written ++ printed.extract 0 limit, some 0,
                          state.output.refusal⟩ state.callDepth)) := by
  have outcome_eq : ((Recorded.interpret fuel program).run (state.withRoom none)).outcome
      = interpret fuel program (state.withRoom none) :=
    congrFun (Recorded.plain_interpret fuel program) _
  obtain ⟨printed, cuts⟩ :=
    Recorded.compositional_cut.interpret fuel program (state.withRoom none) rfl
  have limited_eq : ∀ limit, (Recorded.interpret fuel program).plain (state.withRoom (some limit))
      = interpret fuel program (state.withRoom (some limit)) := by
    intro limit
    rw [Recorded.plain_interpret]
  refine ⟨outcome_eq, printed, ?_, ?_⟩
  · rw [← outcome_eq, cuts.output_eq]
    rfl
  · intro limit
    constructor
    · intro fits
      rw [← limited_eq, ← outcome_eq]
      exact cuts.fits limit fits
    · intro exceeds
      obtain ⟨step, step_mem, keyword, step_exceeds, stopped⟩ := cuts.exceeds limit exceeds
      refine ⟨step, step_mem, keyword, step_exceeds, ?_⟩
      intro more enough
      have ended := (limited_eq limit).symm.trans stopped
      rw [interpret_of_le enough, ended]
      · rfl
      · intro after exhausted
        rw [ended] at exhausted
        cases exhausted

end Interpreter

end Scriptlet
