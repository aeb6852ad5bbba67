import Scriptlet.Proofs.Grammar.Semicolons
import Scriptlet.Proofs.Parser.Program

/-!
# Faults stay in their statements

A statement with a fault ends at its semicolon: what comes behind it is read as if it stood alone.
Recovery may stop before that, at a word that starts a statement, and then another declaration is
read there; but none of them reads past the semicolon, and the last one reads it.

This is not so for statements with braces, where recovery may end inside, and for counting loops,
which go on behind a semicolon. Behind the semicolon there may not be an `else`.
-/

namespace Scriptlet.Parser

open Grammar

/-- Recovery that does not come to the end of input reports no error there. -/
theorem isSome_token_of_recovering {state : State} {rest : List Token} {found : Option Stmt}
    {added : List SyntaxError}
    (run : recovering declaration state = .ok found (state.past rest added))
    (not_ended : rest ≠ []) : ∀ error ∈ added, error.token.isSome := by
  have foresees := (@recognizes_declaration _ (state.rest.length + 1) lax_everything).foresees
  obtain ⟨others, adds⟩ := foresees.recovering.exists_adds (Nat.lt_succ_self _)
  rw [stop_of_ok run] at adds
  obtain rfl : added = others := List.append_cancel_left adds.errors_eq
  intro error error_mem
  rw [Option.isSome_iff_ne_none]
  exact fun at_end => not_ended (adds.located error error_mem at_end)

section Steps

variable {semicolon : Token}

/-- What is left of some tokens and a semicolon behind them: nothing, or fewer of the tokens and the
semicolon. -/
def LeftOf (tokens : List Token) (semicolon : Token) (left : List Token) : Prop :=
  left = [] ∨ ∃ shorter, left = shorter ++ [semicolon] ∧ shorter <:+ tokens ∧
    shorter.length < tokens.length

theorem LeftOf.of_suffix {fewer tokens left : List Token}
    (left_of : LeftOf fewer semicolon left) (suffix : fewer <:+ tokens) :
    LeftOf tokens semicolon left := by
  refine left_of.imp_right ?_
  rintro ⟨shorter, left_eq, shorter_suffix, few⟩
  exact ⟨shorter, left_eq, shorter_suffix.trans suffix, Nat.lt_of_lt_of_le few suffix.length_le⟩

/-- A reader that takes a token leaves fewer. -/
theorem leftOf_of_suffix {tokens left : List Token} (suffix : left <:+ tokens ++ [semicolon])
    (shorter : left.length < (tokens ++ [semicolon]).length) : LeftOf tokens semicolon left := by
  rcases List.suffix_concat_iff.mp suffix with ended | ⟨others, left_eq, others_suffix⟩
  · exact .inl ended
  · refine .inr ⟨others, left_eq, others_suffix, ?_⟩
    rw [left_eq, List.length_append, List.length_append] at shorter
    exact Nat.lt_of_add_lt_add_right shorter

variable (semicolon_kind : semicolon.kind = .semicolon)

include semicolon_kind

/-- Recovery does not go on behind a semicolon, and does not depend on what is there. -/
theorem exists_resume_eq (tokens : List Token) :
    ∃ left, LeftOf tokens semicolon left ∧
      ∀ following, resume (tokens ++ semicolon :: following) = left ++ following := by
  induction tokens with
  | nil =>
      refine ⟨[], .inl rfl, fun following => ?_⟩
      rw [List.nil_append, resume, if_pos semicolon_kind, List.nil_append]
  | cons token tokens ih =>
      have here : LeftOf (token :: tokens) semicolon (tokens ++ [semicolon]) :=
        .inr ⟨tokens, rfl, List.suffix_cons token tokens, Nat.lt_succ_self _⟩
      have head_eq (following : List Token) :
          (tokens ++ semicolon :: following).head? = (tokens ++ [semicolon]).head? :=
        head?_append_eq (List.head?_cons.trans List.head?_cons.symm) tokens
      by_cases ends : token.kind = .semicolon
      · refine ⟨_, here, fun following => ?_⟩
        rw [List.cons_append, resume, if_pos ends, List.append_assoc, List.singleton_append]
      by_cases opens : (tokens ++ [semicolon]).head?.any (opensStatement ·.kind)
      · refine ⟨_, here, fun following => ?_⟩
        rw [List.cons_append, resume, if_neg ends, head_eq, if_pos opens, List.append_assoc,
          List.singleton_append]
      · obtain ⟨left, left_of, resumes⟩ := ih
        refine ⟨left, left_of.of_suffix (List.suffix_cons token tokens), fun following => ?_⟩
        rw [List.cons_append, resume, if_neg ends, head_eq, if_neg opens]
        exact resumes following

variable {faulty : List Token} (plain : ∀ token ∈ faulty, Plain token)

include plain

/-- No failure is behind the semicolon: what stands before it there could go on with an `else`
only. -/
theorem rest_ne_nil_of_failure {before after : State} {error : SyntaxError}
    (rest_eq : before.rest = faulty ++ [semicolon])
    (run : declaration before = .error error after) : after.rest ≠ [] := by
  intro ended
  have foresees {room : Nat} := (@recognizes_declaration _ room lax_everything).foresees
  have token_eq := foresees.located (Nat.lt_succ_self _) run
  obtain ⟨read, left, stalls, next, later, named, tree, derives⟩ :=
    foresees.stalls (Nat.lt_succ_self _) (fun _ _ => trivial) (.raised run fun _ _ => trivial)
  have left_eq : left = [] := by
    have same := stalls.token_eq
    rw [token_eq, ended] at same
    exact List.head?_eq_none_iff.mp same.symm
  have read_eq := stalls.rest_eq
  rw [left_eq, List.append_nil, rest_eq] at read_eq
  rw [← read_eq, List.append_assoc] at derives
  exact named (derives.ends_at_semicolon rfl semicolon_kind plain next rfl)

/-- One declaration in front of a semicolon, or the recovery from it, goes as far as the semicolon
at most, and does the same whatever follows. -/
theorem exists_recovery (loops functions : Nat) :
    ∃ (found : Option Stmt) (left : List Token) (added : List SyntaxError),
      LeftOf faulty semicolon left ∧
      ∀ {state : State} {following : List Token}, state.rest = faulty ++ semicolon :: following →
        state.loopDepth = loops → state.functionDepth = functions → NoElse following →
        recovering declaration state = .ok found (state.past (left ++ following) added) := by
  let alone : State := ⟨faulty ++ [semicolon], loops, functions, []⟩
  have foresees := (@recognizes_declaration _ (alone.rest.length + 1) lax_everything).foresees
  have leads := foresees.leads alone
  have behind {state : State} {following : List Token}
      (rest_eq : state.rest = faulty ++ semicolon :: following) :
      state.rest = alone.rest ++ following := by
    rw [rest_eq, List.append_assoc, List.singleton_append]
  cases run : declaration alone with
  | ok value after =>
      rw [stop_of_ok run] at leads
      have shorter := (eats_nested fun _ => reads_declaration).shorter run
      refine ⟨some value, after.rest, after.errors, leftOf_of_suffix leads.rest_suffix shorter, ?_⟩
      intro state following rest_eq loops_eq functions_eq noElse
      have follows : Follows .elseWord (declaration alone)
          ((stop declaration alone).rest ++ following) := by
        rw [stop_of_ok run, run]
        exact fun noElse_after => noElse_append noElse_after noElse
      have state_run := foresees.run_append alone state (Nat.lt_succ_self _) rfl
        (behind rest_eq) loops_eq functions_eq follows
      rw [stop_of_ok run, run] at state_run
      exact recovering_of_ok state_run
  | error error after =>
      rw [stop_of_error run] at leads
      have not_ended := rest_ne_nil_of_failure semicolon_kind plain rfl run
      rcases List.suffix_concat_iff.mp leads.rest_suffix with ended | ⟨others, rest_eq, suffix⟩
      · exact absurd ended not_ended
      obtain ⟨left, left_of, resumes⟩ := exists_resume_eq semicolon_kind others
      refine ⟨none, left, after.errors ++ [error], left_of.of_suffix suffix, ?_⟩
      intro state following state_eq loops_eq functions_eq _
      have follows : Follows .elseWord (declaration alone)
          ((stop declaration alone).rest ++ following) := by
        rw [stop_of_error run, run]
        obtain ⟨token, left, left_eq⟩ := List.exists_cons_of_ne_nil not_ended
        show (after.rest ++ following).head? = after.rest.head?
        rw [left_eq]
        rfl
      have state_run := foresees.run_append alone state (Nat.lt_succ_self _) rfl
        (behind state_eq) loops_eq functions_eq follows
      rw [stop_of_error run, run, rest_eq, List.append_assoc, List.singleton_append] at state_run
      rw [recovering_of_error state_run, State.past_past]
      exact congrArg (fun rest => EStateM.Result.ok none (state.past rest _)) (resumes following)

/-- Any number of declarations in front of a semicolon, with recovery, come just behind it. -/
theorem exists_statements :
    ∃ (statements : List Stmt) (added : List SyntaxError), (∀ error ∈ added, error.token.isSome) ∧
      ∀ {state after : State} {following : List Token} {others : List Stmt},
        state.rest = faulty ++ semicolon :: following → state.loopDepth = 0 →
        state.functionDepth = 0 → NoElse following →
        program (state.past following added) = .ok others after →
        program state = .ok (statements ++ others) after := by
  induction many_eq : faulty.length using Nat.strongRecOn generalizing faulty with
  | _ many ih =>
      obtain ⟨found, left, added, left_of, recovers⟩ := exists_recovery semicolon_kind plain 0 0
      have located : ∀ error ∈ added, error.token.isSome := by
        have run : recovering declaration (.start (faulty ++ [semicolon, semicolon])) =
            .ok found (State.past _ (left ++ [semicolon]) added) :=
          recovers rfl rfl rfl (noElse_cons (by rw [semicolon_kind]; decide))
        exact isSome_token_of_recovering run (by simp)
      rcases left_of with rfl | ⟨shorter, rfl, suffix, fewer⟩
      · refine ⟨found.toList, added, located, ?_⟩
        intro state after following others rest_eq outside_loop outside_function noElse later
        exact run_program_of_recovering (by simp [rest_eq])
          (recovers rest_eq outside_loop outside_function noElse) later
      · have shorter_plain : ∀ token ∈ shorter, Plain token := fun token token_mem =>
          plain token (suffix.subset token_mem)
        obtain ⟨statements, more, more_located, reads⟩ :=
          ih shorter.length (many_eq ▸ fewer) shorter_plain rfl
        refine ⟨found.toList ++ statements, added ++ more,
          List.forall_mem_append.mpr ⟨located, more_located⟩, ?_⟩
        intro state after following others rest_eq outside_loop outside_function noElse later
        have recovered := recovers rest_eq outside_loop outside_function noElse
        rw [List.append_assoc]
        refine run_program_of_recovering (by simp [rest_eq]) recovered ?_
        refine reads (by simp [State.past]) outside_loop outside_function noElse ?_
        rwa [State.past_past]

/-- What is made of tokens that end with a semicolon is put in front of what is made of the tokens
behind them. -/
theorem exists_parseProgram_eq :
    ∃ (statements : List Stmt) (added : List SyntaxError), (∀ error ∈ added, error.token.isSome) ∧
      ∀ {following : List Token}, NoElse following →
        parseProgram (faulty ++ semicolon :: following) =
          (statements ++ (parseProgram following).1, added ++ (parseProgram following).2) := by
  obtain ⟨statements, added, located, reads⟩ := exists_statements semicolon_kind plain
  refine ⟨statements, added, located, ?_⟩
  intro following noElse
  let start : State := .start (faulty ++ semicolon :: following)
  have run : program start = .ok (statements ++ (parseProgram following).1) _ :=
    reads rfl rfl rfl noElse (run_program_eq (start.past following added) rfl rfl)
  obtain ⟨after, start_run, errors_eq⟩ := exists_run_program (faulty ++ semicolon :: following)
  rw [start_run] at run
  injection run with statements_eq after_eq
  rw [after_eq] at errors_eq
  exact Prod.ext statements_eq errors_eq.symm

end Steps

/-- The statements that are made of tokens, and what is reported of them. -/
structure Reading where
  statements : List Stmt
  reports : List Diagnostic

instance : Append Reading where
  append first second :=
    ⟨first.statements ++ second.statements, first.reports ++ second.reports⟩

/-- What is read from tokens, and what is reported. -/
def reading (tokens : Tokens) : Reading where
  statements := (parseProgram tokens.body).1
  reports := (parseProgram tokens.body).2.map (·.diagnostic tokens.last)

/-- Tokens up to a semicolon, which need not be a statement. -/
structure Stretch where
  tokens : List Token
  semicolon : Token.OfKind .semicolon
  plain : ∀ token ∈ tokens, Plain token

/-- All tokens of a stretch. -/
def Stretch.toList (stretch : Stretch) : List Token :=
  stretch.tokens ++ [stretch.semicolon.token]

theorem Stretch.noElse (stretch : Stretch) (apart : NoElse stretch.tokens) (rest : List Token) :
    NoElse (stretch.toList ++ rest) := by
  rw [toList, List.append_assoc]
  exact noElse_append apart (noElse_cons (by rw [stretch.semicolon.kind_eq]; decide))

/-- A stretch and what follows it are read as if each stood alone. -/
theorem Stretch.reading_append (stretch : Stretch) {following : Tokens}
    (noElse : NoElse following.body) (last : Token) :
    reading ⟨stretch.toList ++ following.body, following.last⟩ =
      reading ⟨stretch.toList, last⟩ ++ reading following := by
  obtain ⟨statements, added, located, reads⟩ :=
    exists_parseProgram_eq stretch.semicolon.kind_eq stretch.plain
  have alone : parseProgram stretch.toList = (statements, added) := by
    have nothing : NoElse [] := by simp [NoElse]
    have alone_eq := reads nothing
    rwa [show parseProgram [] = ([], []) from rfl, List.append_nil, List.append_nil] at alone_eq
  have joined := reads noElse
  rw [← List.singleton_append, ← List.append_assoc] at joined
  have anywhere : added.map (·.diagnostic following.last) = added.map (·.diagnostic last) := by
    apply List.map_congr_left
    intro error error_mem
    obtain ⟨token, token_eq⟩ := Option.isSome_iff_exists.mp (located error error_mem)
    simp only [SyntaxError.diagnostic, SyntaxError.tokenOr, token_eq, Option.getD_some]
  show Reading.mk _ _ = Reading.mk _ _
  simp only [reading, Stretch.toList] at alone ⊢
  rw [joined, alone, List.map_append, anywhere]

/-- Stretches up to semicolons are read one by one as if each stood alone, whatever is wrong in
them, and so is what follows them. -/
theorem faults_contained (first : Stretch) (others : List Stretch)
    (apart : ∀ other ∈ others, NoElse other.tokens) {following : Tokens}
    (noElse : NoElse following.body) (last : Token) :
    reading ⟨(first :: others).flatMap Stretch.toList ++ following.body, following.last⟩ =
      ((first :: others).map fun stretch => reading ⟨stretch.toList, last⟩).foldr (· ++ ·)
        (reading following) := by
  induction others generalizing first with
  | nil =>
      rw [List.flatMap_singleton]
      exact first.reading_append noElse last
  | cons second others ih =>
      obtain ⟨second_apart, others_apart⟩ := List.forall_mem_cons.mp apart
      let behind : Tokens :=
        ⟨(second :: others).flatMap Stretch.toList ++ following.body, following.last⟩
      have noElse_behind : NoElse behind.body := by
        simp only [behind, List.flatMap_cons, List.append_assoc]
        exact second.noElse second_apart _
      have step := first.reading_append noElse_behind last
      rw [ih second others_apart] at step
      rw [List.flatMap_cons, List.append_assoc]
      exact step

/-- A parenthesis with nothing behind it. -/
def unclosedPrint : Stretch where
  tokens := [(sample .printWord).token, (sample .leftParen).token]
  semicolon := sample .semicolon
  plain := by simp [Plain, sample]

/-- A jump outside of a loop, and a name before its semicolon. -/
def strayJump : Stretch where
  tokens := [(sample .breakWord).token, (sample .identifier).token]
  semicolon := sample .semicolon
  plain := by simp [Plain, sample]

/-- A print statement without a fault. -/
def properPrint : Tokens where
  body := [(sample .printWord).token, (sample .identifier).token, (sample .semicolon).token]
  last := .atEnd 1

theorem faults_contained_print :
    (∀ other ∈ [strayJump], NoElse other.tokens) ∧ NoElse properPrint.body ∧
    (reading ⟨unclosedPrint.toList ++ (strayJump.toList ++ properPrint.body),
        properPrint.last⟩).statements = (reading properPrint).statements ∧
    (reading ⟨unclosedPrint.toList ++ (strayJump.toList ++ properPrint.body),
        properPrint.last⟩).reports.map (·.message) =
      ["Expect expression.", "Can't use 'break' outside of a loop.",
        "Expect ';' after 'break'."] := by
  have apart : ∀ other ∈ [strayJump], NoElse other.tokens := by
    simp [NoElse, strayJump, sample]
  have noElse : NoElse properPrint.body := by simp [NoElse, properPrint, sample]
  have contained := faults_contained unclosedPrint [strayJump] apart noElse (.atEnd 1)
  have tokens_eq : [unclosedPrint, strayJump].flatMap Stretch.toList ++ properPrint.body =
      unclosedPrint.toList ++ (strayJump.toList ++ properPrint.body) := rfl
  rw [tokens_eq] at contained
  rw [contained]
  exact ⟨apart, noElse, rfl, rfl⟩

end Scriptlet.Parser
