import Scriptlet.Proofs.Evaluation.Fuel
import Scriptlet.Proofs.Evaluation.LoopFree
import Scriptlet.Proofs.Session.Placement

/-!
# Sessions without loops

A session that has run only programs without loops holds finitely many functions, none with a loop,
so some bound covers them all. The bound grows with each source. With it, any further program
without loops has enough fuel to finish.
-/

namespace Scriptlet

open Text (Segmentation)
open Evaluation

/-- There is no loop in what is made of a source. -/
def LoopFree (segmentation : Segmentation) (source : String) : Prop :=
  ∀ statement ∈ programOf segmentation source, statement.loopFree = true

instance (segmentation : Segmentation) (source : String) :
    Decidable (LoopFree segmentation source) :=
  inferInstanceAs (Decidable (∀ statement ∈ _, _))

/-- Sessions that have run only allowed sources. They may have parsed others. -/
inductive Session.RanOnly (segmentation : Segmentation) (allowed : String → Prop) :
    Session → Prop where
  | start (output : Output) (clock : Clock) : RanOnly segmentation allowed (.start output clock)
  | run {before after : Session} {source : String} {fuel : Nat}
      (ran : RanOnly segmentation allowed before) (isAllowed : allowed source)
      (finished : before.run segmentation fuel source = .ok after) :
      RanOnly segmentation allowed after
  | parse {before : Session} (source : String) (ran : RanOnly segmentation allowed before) :
      RanOnly segmentation allowed (before.parse segmentation source).2
  | reset {before : Session} (ran : RanOnly segmentation allowed before) :
      RanOnly segmentation allowed before.reset
  | write {before : Session} (text : String) (ran : RanOnly segmentation allowed before) :
      RanOnly segmentation allowed (before.write text)

/-- Some bound covers the functions in a state and those that a program declares. -/
theorem Evaluation.BoundedAt.exists_covering {bound depth : Nat} {state : Interpreter}
    (bounded : BoundedAt bound depth state) (program : List Stmt) :
    ∃ larger, sizeOf program ≤ larger ∧ BoundedAt larger depth state := by
  refine ⟨max bound (sizeOf program), Nat.le_max_right .., ?_, bounded.2⟩
  apply bounded.1.mono
  rintro declaration ⟨loopFree, small⟩
  exact ⟨loopFree, Nat.le_trans small (Nat.le_max_left ..)⟩

/-- Fuel beyond what a program without loops needs makes no difference, and less is enough only if
it makes none either. -/
theorem Interpreter.interpret_loopFree {bound : Nat} {program : List Stmt} {state : Interpreter}
    (loopFree : ∀ statement ∈ program, statement.loopFree = true)
    (small : sizeOf program ≤ bound) (bounded : BoundedAt bound 0 state) (fuel : Nat)
    (enough : loopFreeFuel bound ≤ fuel ∨
      ∀ after, interpret fuel program state ≠ .error (.abort .exhausted) after) :
    interpret fuel program state = interpret (loopFreeFuel bound) program state := by
  have finishes := finishes_interpret loopFree small
  have unexhausted : ∀ after,
      interpret (loopFreeFuel bound) program state ≠ .error (.abort .exhausted) after := by
    intro after exhausted
    exact (finishes.of_error bounded exhausted).2 rfl
  rcases Nat.le_total (loopFreeFuel bound) fuel with more | less
  · exact interpret_of_le more unexhausted
  · rcases enough with more | finished
    · exact interpret_of_le more unexhausted
    · exact (interpret_of_le less finished).symm

namespace Session

variable {segmentation : Segmentation}

theorem RanOnly.reached {allowed : String → Prop} {session : Session}
    (ran : session.RanOnly segmentation allowed) : session.Reached segmentation := by
  induction ran with
  | start output clock => exact .start output clock
  | run _ _ finished ih => exact .run ih finished
  | parse source _ ih => exact .parse source ih
  | reset _ ih => exact .reset ih
  | write text _ ih => exact .write text ih

/-- A run that finishes leaves only functions that some bound covers. -/
theorem exists_boundedAt_of_interpret {session after : Session} {fuel bound : Nat}
    {program : List Stmt} (loopFree : ∀ statement ∈ program, statement.loopFree = true)
    (bounded : BoundedAt bound 0 session.interpreter)
    (finished : session.interpret fuel program = .ok after) :
    ∃ larger, BoundedAt larger 0 after.interpreter := by
  obtain ⟨larger, small, covered⟩ := bounded.exists_covering program
  have finishes := Interpreter.finishes_interpret loopFree small
  have same := Interpreter.interpret_loopFree loopFree small covered fuel
  refine ⟨larger, ?_⟩
  rcases interpret_cases finished with ⟨state, run, rfl⟩ | ⟨error, state, run, rfl⟩
  · rw [run] at same
    exact (finishes.of_ok covered (same (.inr (by rintro state ⟨⟩))).symm).1
  · rw [run] at same
    exact (finishes.of_error covered (same (.inr (by rintro state ⟨⟩))).symm).1

theorem RanOnly.exists_boundedAt {session : Session}
    (ran : session.RanOnly segmentation (LoopFree segmentation)) :
    ∃ bound, BoundedAt bound 0 session.interpreter := by
  induction ran with
  | start output clock => exact ⟨0, Interpreter.admitted_start output clock, rfl⟩
  | @run before after source fuel _ loopFree finished ih =>
      obtain ⟨bound, bounded⟩ := ih
      rcases run_cases before source fuel with refused | ⟨-, interpreted⟩
      · rw [refused] at finished
        cases finished
        exact ⟨bound, bounded⟩
      · rw [interpreted] at finished
        have parsed : BoundedAt bound 0 (before.parse segmentation source).2.interpreter := bounded
        exact exists_boundedAt_of_interpret loopFree parsed finished
  | parse _ _ ih | reset _ ih | write _ _ ih => exact ih

/-- Enough fuel for a program without loops gives an answer, and more of it the same. -/
theorem exists_interpret_of_loopFree (session : Session) {bound : Nat} {program : List Stmt}
    (loopFree : ∀ statement ∈ program, statement.loopFree = true)
    (small : sizeOf program ≤ bound) (bounded : BoundedAt bound 0 session.interpreter)
    (placed : ∀ completion after, Interpreter.interpret (Interpreter.loopFreeFuel bound) program
      session.interpreter ≠ .error (.abort (.strayJump completion)) after) :
    ∃ after, ∀ more, Interpreter.loopFreeFuel bound ≤ more →
      session.interpret more program = .ok after := by
  have finishes := Interpreter.finishes_interpret loopFree small
  have same : ∀ more, Interpreter.loopFreeFuel bound ≤ more →
      Interpreter.interpret more program session.interpreter
        = Interpreter.interpret (Interpreter.loopFreeFuel bound) program session.interpreter :=
    fun more enough => Interpreter.interpret_loopFree loopFree small bounded more (.inl enough)
  cases ended : Interpreter.interpret (Interpreter.loopFreeFuel bound) program
      session.interpreter with
  | ok value state =>
      exact ⟨_, fun more enough => interpret_of_ok ((same more enough).trans ended)⟩
  | error stop state =>
      cases stop with
      | error error =>
          exact ⟨_, fun more enough => interpret_of_error ((same more enough).trans ended)⟩
      | abort reason =>
          cases reason with
          | strayJump completion => exact absurd ended (placed completion state)
          | exhausted => exact absurd rfl (finishes.of_error bounded ended).2

/-- In a session without loops every run returns, whatever functions it calls: with some fuel and
with any more. -/
theorem loopFree_runs_finish {session : Session}
    (ran : session.RanOnly segmentation (LoopFree segmentation)) {source : String}
    (loopFree : LoopFree segmentation source) :
    ∃ fuel after, ∀ more, fuel ≤ more → session.run segmentation more source = .ok after := by
  obtain ⟨bound, bounded⟩ := ran.exists_boundedAt
  obtain ⟨larger, small, covered⟩ := bounded.exists_covering (programOf segmentation source)
  cases accepted : (session.parse segmentation source).2.diagnostics.hadError with
  | true =>
      refine ⟨0, (session.parse segmentation source).2, ?_⟩
      intro more _
      simp only [run, accepted, if_true]
  | false =>
      have placed := (jumpsPlaced_of_parse accepted).wellPlaced_programOf
      have wellPlaced := ran.reached.wellPlaced
      obtain ⟨after, finished⟩ := exists_interpret_of_loopFree
        (session.parse segmentation source).2 loopFree small covered fun completion after =>
          Interpreter.interpret_ne_strayJump wellPlaced placed _ completion
      refine ⟨Interpreter.loopFreeFuel larger, after, ?_⟩
      intro more enough
      simp only [run, accepted, Bool.false_eq_true, if_false]
      exact finished more enough

/-- Unbounded recursion ends, also of a function that an earlier source left. -/
theorem loopFree_runs_finish_recursion :
    ∃ declared after : Session,
      (∃ fuel, (start .unlimited (.ofReadings fun _ => 0)).run .graphemes fuel
        "fun f(n) { print n; f(n + 1); f(n); }" = .ok declared) ∧
      ∃ fuel, ∀ more, fuel ≤ more → declared.run .graphemes more "f(0);" = .ok after := by
  have declares : LoopFree .graphemes "fun f(n) { print n; f(n + 1); f(n); }" := by decide +kernel
  have calls : LoopFree .graphemes "f(0);" := by decide +kernel
  have started : (start .unlimited (.ofReadings fun _ => 0)).RanOnly .graphemes
      (LoopFree .graphemes) := .start _ _
  obtain ⟨fuel, declared, finished⟩ := loopFree_runs_finish started declares
  have first := finished fuel (Nat.le_refl fuel)
  obtain ⟨enough, after, ends⟩ := loopFree_runs_finish (.run started declares first) calls
  exact ⟨declared, after, ⟨fuel, first⟩, ⟨enough, ends⟩⟩

end Session

end Scriptlet
