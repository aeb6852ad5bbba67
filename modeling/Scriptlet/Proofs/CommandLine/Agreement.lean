import Scriptlet.Proofs.CommandLine.Input
import Scriptlet.Proofs.Session.Transcript
import Scriptlet.Proofs.Text.LineEnd

/-!
# Scripts and dialogues agree

With a segmentation that cuts lines, lines in which nothing is wrong do the same in a script and one
by one after prompts. Both are compared with the transcript of the lines: the script runs a program
that is the lines apart from where they stand, and a dialogue runs each line without what is trimmed
from its end.
-/

namespace Scriptlet

open Text (Segmentation)
open Interpreter (Alike AlikeSince exists_ok_of_alike exists_error_of_alike)

namespace Session

/-- Running a source only adds to what is written, and sets no limit. -/
theorem exists_printed {segmentation : Segmentation} {session after : Session} {fuel : Nat}
    {source : String}
    (finished : session.run segmentation fuel source = .ok after) :
    (session.interpreter.output.room = none → after.interpreter.output.room = none) ∧
      ∃ text, after.written = session.written ++ text := by
  rcases run_cases session source fuel with refused | ⟨-, interpreted⟩
  · rw [refused] at finished
    cases finished
    exact ⟨id, .empty, ByteArray.append_empty.symm⟩
  · rw [interpreted] at finished
    have alike : session.interpreter.Alike session.interpreter := rfl
    rcases interpret_cases finished with ⟨state, run, rfl⟩ | ⟨error, state, run, rfl⟩
    · rcases exists_ok_of_alike alike rfl run with ⟨_, -, alikeSince⟩
      rcases alikeSince.printed with ⟨text, written_eq, -⟩
      exact ⟨alikeSince.unlimited, text, written_eq⟩
    · rcases exists_error_of_alike alike rfl run with ⟨_, _, -, -, alikeSince⟩
      rcases alikeSince.printed with ⟨text, written_eq, -⟩
      exact ⟨alikeSince.unlimited, text, written_eq⟩

theorem written_write {session : Session} (unlimited : session.interpreter.output.room = none)
    (text : String) : (session.write text).written = session.written ++ text.toUTF8 := by
  simp only [write, written, Output.write, unlimited]

theorem room_write {session : Session} (unlimited : session.interpreter.output.room = none)
    (text : String) : (session.write text).interpreter.output.room = none := by
  simp only [write, Output.write, unlimited]

theorem alike_write {session : Session} (unlimited : session.interpreter.output.room = none)
    (text : String) : session.interpreter.Alike (session.write text).interpreter := by
  simp only [Interpreter.Alike, Interpreter.blank, write, Output.write, unlimited]

end Session

namespace CommandLine

/-- The prompt. -/
def promptText : ByteArray :=
  "> ".toUTF8

/-- What a dialogue writes when it answers with some texts: each after a prompt, and a prompt after
the last. -/
def conversation (texts : List ByteArray) : ByteArray :=
  joinTexts (texts.map (promptText ++ ·)) ++ promptText

theorem conversation_nil : conversation [] = promptText := by
  simp only [conversation, List.map_nil, joinTexts, ByteArray.empty_append]

theorem conversation_cons (text : ByteArray) (texts : List ByteArray) :
    conversation (text :: texts) = promptText ++ text ++ conversation texts := by
  simp only [conversation, List.map_cons, joinTexts, ByteArray.append_assoc]

namespace Dialogue

variable {segmentation : Segmentation} {fuel : Nat} {dialogue : Dialogue} {input : List UInt8}
  {inputs : List (List UInt8)}

theorem run_of_outcome {outcome : Outcome}
    (answered : dialogue.prompt.answer segmentation fuel false input = .ok (.inl outcome)) :
    dialogue.run segmentation fuel false (input :: inputs) = .ok outcome := by
  simp only [run, answered, bind, Except.bind]
  rfl

theorem run_of_dialogue {after : Dialogue}
    (answered : dialogue.prompt.answer segmentation fuel false input = .ok (.inr after)) :
    dialogue.run segmentation fuel false (input :: inputs)
      = after.run segmentation fuel false inputs := by
  simp only [run, answered, bind, Except.bind]

theorem run_of_abort {reason : Abort}
    (answered : dialogue.prompt.answer segmentation fuel false input = .error reason) :
    dialogue.run segmentation fuel false (input :: inputs) = .error reason := by
  simp only [run, answered, bind, Except.bind]

theorem answer_of_run {text : String} (decoded : decode input = .ok text)
    (some_char : trimEnd text ≠ "") {after : Session}
    (finished : dialogue.session.run segmentation fuel (trimEnd text) = .ok after) :
    dialogue.answer segmentation fuel false input
      = .ok (.inr ⟨after.reset, dialogue.stderr ++ echo after⟩) := by
  simp only [answer, decoded, some_char, if_false, feed, process, Bool.false_eq_true, finished]
  rfl

/-- An answer ends the dialogue and writes nothing, or runs a source. -/
theorem answer_cases {next : Outcome ⊕ Dialogue}
    (answered : dialogue.answer segmentation fuel false input = .ok next) :
    (∃ outcome, next = .inl outcome ∧ outcome.stdout = dialogue.session.written) ∨
      ∃ source after, dialogue.session.run segmentation fuel source = .ok after ∧
        next = .inr ⟨after.reset, dialogue.stderr ++ echo after⟩ := by
  cases decoded : decode input with
  | error error =>
      simp only [answer, decoded] at answered
      cases answered
      exact .inl ⟨_, rfl, rfl⟩
  | ok text =>
      by_cases empty : trimEnd text = ""
      · simp only [answer, decoded, empty, if_true] at answered
        cases answered
        exact .inl ⟨_, rfl, rfl⟩
      · cases finished : dialogue.session.run segmentation fuel (trimEnd text) with
        | error reason =>
            simp only [answer, decoded, empty, if_false, feed, process, Bool.false_eq_true,
              finished] at answered
            cases answered
        | ok after =>
            rw [answer_of_run decoded empty finished] at answered
            cases answered
            exact .inr ⟨_, after, finished, rfl⟩

/-- A dialogue starts with a prompt and keeps what was written before. -/
theorem exists_later_of_run (unlimited : dialogue.session.interpreter.output.room = none)
    {outcome : Outcome} (finished : dialogue.run segmentation fuel false inputs = .ok outcome) :
    ∃ later, outcome.stdout = dialogue.session.written ++ promptText ++ later := by
  have prompted : dialogue.prompt.session.written = dialogue.session.written ++ promptText :=
    Session.written_write unlimited "> "
  induction inputs generalizing dialogue with
  | nil =>
      cases finished
      exact ⟨.empty, by rw [ByteArray.append_empty]; exact prompted⟩
  | cons input inputs ih =>
      cases answered : dialogue.prompt.answer segmentation fuel false input with
      | error reason =>
          rw [run_of_abort answered] at finished
          cases finished
      | ok next =>
          rcases answer_cases answered with
            ⟨last, rfl, stdout_eq⟩ | ⟨source, after, source_run, rfl⟩
          · rw [run_of_outcome answered] at finished
            cases finished
            exact ⟨.empty, by rw [ByteArray.append_empty, stdout_eq]; exact prompted⟩
          · rw [run_of_dialogue answered] at finished
            rcases Session.exists_printed source_run with ⟨kept_unlimited, text, written_eq⟩
            have after_unlimited := kept_unlimited (Session.room_write unlimited "> ")
            rcases ih after_unlimited finished (Session.written_write after_unlimited "> ") with
              ⟨later, stdout_eq⟩
            refine ⟨text ++ promptText ++ later, ?_⟩
            rw [stdout_eq]
            change after.written ++ promptText ++ later = _
            rw [written_eq, prompted]
            simp only [ByteArray.append_assoc]

/-- A dialogue answers a clean line with what the line prints, whether or not it raises a runtime
error, and goes on in a state like the one that the line leads to. -/
theorem exists_dialogue_of_line [segmentation.CutsLines] {line : String}
    (shows : Shows input line) (no_feed : '\n' ∉ line.toList) (some_char : trimEnd line ≠ "")
    (clean : IsClean segmentation line)
    {session : Session} {reached : Interpreter} {printed : ByteArray}
    (ended : Interpreter.interpret fuel (programOf segmentation line) session.interpreter
        = .ok () reached ∨
      ∃ error, Interpreter.interpret fuel (programOf segmentation line) session.interpreter
        = .error (.error error) reached)
    (written_eq : reached.output.written = session.written ++ printed)
    (alike : session.interpreter.Alike dialogue.session.interpreter)
    (unreported : dialogue.session.diagnostics = .empty)
    (unlimited : dialogue.session.interpreter.output.room = none) (inputs : List (List UInt8)) :
    ∃ after : Dialogue,
      dialogue.run segmentation fuel false (input :: inputs)
          = after.run segmentation fuel false inputs ∧
        after.session.written = dialogue.session.written ++ promptText ++ printed ∧
        reached.Alike after.session.interpreter ∧ after.session.diagnostics = .empty ∧
        after.session.interpreter.output.room = none := by
  rcases shows with ⟨text, decoded, trimmed_eq⟩
  rcases clean.trimmed no_feed with ⟨trimmed_clean, same⟩
  rw [← trimEnd_eq, ← trimmed_eq] at trimmed_clean same
  have some_char_left : trimEnd text ≠ "" := by
    rw [trimmed_eq]
    exact some_char
  have prompt_alike : session.interpreter.Alike dialogue.prompt.session.interpreter :=
    alike.trans (Session.alike_write unlimited "> ")
  have prompt_unreported : dialogue.prompt.session.diagnostics = .empty := unreported
  have prompted : dialogue.prompt.session.written = dialogue.session.written ++ promptText :=
    Session.written_write unlimited "> "
  obtain ⟨after, finished, alikeSince⟩ : ∃ after,
      dialogue.prompt.session.run segmentation fuel (trimEnd text) = .ok after ∧
        AlikeSince session.interpreter.output dialogue.prompt.session.interpreter.output reached
          after.interpreter := by
    rw [Session.run_of_clean trimmed_clean prompt_unreported fuel]
    rcases ended with run | ⟨error, run⟩
    · rcases exists_ok_of_alike prompt_alike same.symm run with ⟨_, other_run, alikeSince⟩
      exact ⟨_, Session.interpret_of_ok other_run, alikeSince⟩
    · rcases exists_error_of_alike prompt_alike same.symm run with
        ⟨_, _, other_run, -, alikeSince⟩
      exact ⟨_, Session.interpret_of_error other_run, alikeSince⟩
  have after_written : after.written = dialogue.prompt.session.written ++ printed :=
    alikeSince.written_eq written_eq
  refine ⟨⟨after.reset, dialogue.prompt.stderr ++ echo after⟩,
    run_of_dialogue (answer_of_run decoded some_char_left finished), ?_, alikeSince.alike, rfl,
    (Session.exists_printed finished).1 (Session.room_write unlimited "> ")⟩
  rw [← prompted]
  exact after_written

/-- A dialogue answers clean lines with what they print. It goes on after a runtime error, so only
then can it write more. -/
theorem run_of_transcript [segmentation.CutsLines] {lines : List String}
    (shown : List.Forall₂ Shows inputs lines)
    (no_feed : ∀ line ∈ lines, '\n' ∉ line.toList)
    (some_char : ∀ line ∈ lines, trimEnd line ≠ "")
    (clean : ∀ line ∈ lines, IsClean segmentation line)
    {session : Session} {texts : List ByteArray} {failed : Bool}
    (unreported : session.diagnostics = .empty)
    (told : session.transcript segmentation fuel lines = .ok (texts, failed))
    (alike : session.interpreter.Alike dialogue.session.interpreter)
    (dialogue_unreported : dialogue.session.diagnostics = .empty)
    (unlimited : dialogue.session.interpreter.output.room = none) :
    (∀ outcome, dialogue.run segmentation fuel false inputs = .ok outcome →
      ∃ later, outcome.stdout = dialogue.session.written ++ conversation texts ++ later) ∧
    (failed = false → ∃ outcome, dialogue.run segmentation fuel false inputs = .ok outcome ∧
      outcome.stdout = dialogue.session.written ++ conversation texts ∧
      outcome.status = .success) := by
  induction shown generalizing dialogue session texts with
  | nil =>
      cases told
      have stdout_eq : (dialogue.prompt.close .success).stdout
          = dialogue.session.written ++ conversation [] := by
        rw [conversation_nil]
        exact Session.written_write unlimited "> "
      refine ⟨?_, fun _ => ⟨_, rfl, stdout_eq, rfl⟩⟩
      rintro _ ⟨⟩
      exact ⟨.empty, by rw [stdout_eq, ByteArray.append_empty]⟩
  | @cons input line inputs lines input_shows _ ih =>
      rw [List.forall_mem_cons] at no_feed some_char clean
      rcases Session.transcript_cons clean.1 unreported told with
        ⟨error, reached, printed, run, written_eq, rfl, rfl⟩ |
        ⟨reached, printed, later, run, written_eq, rfl, later_told⟩
      · obtain ⟨after, run_eq, after_written, -, -, after_unlimited⟩ :=
          exists_dialogue_of_line input_shows no_feed.1 some_char.1 clean.1 (.inr ⟨error, run⟩)
            written_eq alike dialogue_unreported unlimited inputs
        rw [run_eq]
        refine ⟨?_, fun impossible => by cases impossible⟩
        intro outcome finished
        rcases exists_later_of_run after_unlimited finished with ⟨later, stdout_eq⟩
        refine ⟨later, ?_⟩
        rw [stdout_eq, after_written, conversation_cons, conversation_nil]
        simp only [ByteArray.append_assoc]
      · obtain ⟨after, run_eq, after_written, after_alike, after_unreported, after_unlimited⟩ :=
          exists_dialogue_of_line input_shows no_feed.1 some_char.1 clean.1 (.inl run) written_eq
            alike dialogue_unreported unlimited inputs
        have still_unreported : ({ session with interpreter := reached } : Session).diagnostics
            = .empty := unreported
        have whole : after.session.written ++ conversation later
            = dialogue.session.written ++ conversation (printed :: later) := by
          rw [after_written, conversation_cons]
          simp only [ByteArray.append_assoc]
        rw [run_eq, ← whole]
        exact ih no_feed.2 some_char.2 clean.2 still_unreported later_told after_alike
          after_unreported after_unlimited

end Dialogue

theorem runScript_of_run {segmentation : Segmentation} {fuel : Nat} {session after : Session}
    {source : String} {content : Except ReadError (List UInt8)}
    (decoded : content >>= decode = .ok source)
    (finished : session.run segmentation fuel source = .ok after) (name : String) :
    runScript segmentation fuel false session name content
      = .ok ⟨statusOf after.diagnostics, after.written, echo after⟩ := by
  simp only [runScript, decoded, process, Bool.false_eq_true, if_false, finished]
  rfl

/-- A script of clean lines writes what they print. -/
theorem runScript_of_transcript {segmentation : Segmentation} [segmentation.CutsLines] {fuel : Nat}
    {clock : Clock} {lines : List String} {texts : List ByteArray} {failed : Bool}
    {content : Except ReadError (List UInt8)}
    (clean : ∀ line ∈ lines, IsClean segmentation line)
    (told : (Session.start .unlimited clock).transcript segmentation fuel lines
      = .ok (texts, failed))
    (content_eq : content = .ok (bytesOf ("\n".intercalate lines))) (name : String) :
    ∃ outcome,
      runScript segmentation fuel false (Session.start .unlimited clock) name content
          = .ok outcome ∧
        outcome.stdout = joinTexts texts ∧ (failed = false → outcome.status.code = 0) := by
  rcases IsClean.joined clean with ⟨joined_clean, same⟩
  have alike : (Session.start .unlimited clock).interpreter.Alike
    (Session.start .unlimited clock).interpreter := rfl
  have run_eq := Session.run_of_clean joined_clean
    (show (Session.start .unlimited clock).diagnostics = .empty from rfl) fuel
  have decoded : content >>= decode = .ok ("\n".intercalate lines) := by
    rw [content_eq]
    exact decode_bytesOf _
  rcases Session.program_of_transcript clean rfl told alike same with
    ⟨after, written_eq, ⟨-, run⟩ | ⟨rfl, error, run⟩⟩
  · have finished := run_eq.trans (Session.interpret_of_ok run)
    exact ⟨_, runScript_of_run decoded finished name, written_eq.trans ByteArray.empty_append,
      fun _ => rfl⟩
  · have finished := run_eq.trans (Session.interpret_of_error run)
    exact ⟨_, runScript_of_run decoded finished name, written_eq.trans ByteArray.empty_append,
      fun impossible => by cases impossible⟩

/-- With a segmentation that cuts lines, clean lines joined by line feeds write the same as a script
and, after prompts, in a dialogue, up to the first that raises a runtime error. Without one the
dialogue writes nothing else, and both succeed. -/
theorem script_agrees_with_dialogue {segmentation : Segmentation}
    [cutsLines : segmentation.CutsLines] {fuel : Nat} {clock : Clock} {lines : List String}
    {texts : List ByteArray} {failed : Bool} {name : String}
    {content : String → Except ReadError (List UInt8)}
    (no_feed : ∀ line ∈ lines, '\n' ∉ line.toList)
    (some_char : ∀ line ∈ lines, trimEnd line ≠ "")
    (clean : ∀ line ∈ lines, IsClean segmentation line)
    (told : (Session.start .unlimited clock).transcript segmentation fuel lines
      = .ok (texts, failed))
    (name_ne : name ≠ "--ast")
    (content_eq : content name = .ok (bytesOf ("\n".intercalate lines))) :
    (∀ stdin, ∃ outcome, run segmentation fuel clock [name] content stdin = .ok outcome ∧
      outcome.stdout = joinTexts texts ∧ (failed = false → outcome.status.code = 0)) ∧
    (∀ outcome,
      run segmentation fuel clock [] content (bytesOf ("\n".intercalate lines)) = .ok outcome →
      ∃ later, outcome.stdout = conversation texts ++ later) ∧
    (failed = false →
      ∃ outcome,
        run segmentation fuel clock [] content (bytesOf ("\n".intercalate lines)) = .ok outcome ∧
        outcome.stdout = conversation texts ∧ outcome.status.code = 0) := by
  have some_byte : ∀ line ∈ lines, line ≠ "" := by
    rintro line line_mem rfl
    exact some_char "" line_mem rfl
  have script_options : Options.ofArguments? [name] = some ⟨false, some name⟩ := by
    simp [Options.ofArguments?, Options.take, name_ne]
  have started : (Session.start .unlimited clock).diagnostics = .empty := rfl
  have alike : (Session.start .unlimited clock).interpreter.Alike
      (⟨Session.start .unlimited clock, ""⟩ : Dialogue).session.interpreter := rfl
  have nothing_before (text : ByteArray) :
      (Session.start .unlimited clock).written ++ text = text := ByteArray.empty_append
  rcases Dialogue.run_of_transcript (shows_joined no_feed some_byte) no_feed some_char clean
    started told alike started rfl with ⟨begins, whole⟩
  simp only [nothing_before] at begins whole
  refine ⟨?_, begins, ?_⟩
  · intro stdin
    simp only [run, script_options]
    exact runScript_of_transcript clean told content_eq name
  · intro no_error
    rcases whole no_error with ⟨outcome, finished, stdout_eq, status_eq⟩
    exact ⟨outcome, finished, stdout_eq, by rw [status_eq]; rfl⟩

/-- Lines of which the first ends in a comment with a carriage return, and the second in an `if`
that could take an `else`. -/
def sampleLines : List String :=
  ["var a = \"x\"; // note\r", "if (nil) print a;", "fun f() { return a; } print f();"]

theorem sampleLines_agree :
    (∃ outcome,
      run .graphemes 20 (.ofReadings fun _ => 0) ["script"]
          (fun _ => .ok (bytesOf ("\n".intercalate sampleLines))) [] = .ok outcome ∧
        outcome.stdout = "x\n".toUTF8 ∧ outcome.status.code = 0) ∧
    ∃ outcome,
      run .graphemes 20 (.ofReadings fun _ => 0) []
          (fun _ => .ok (bytesOf ("\n".intercalate sampleLines)))
          (bytesOf ("\n".intercalate sampleLines)) = .ok outcome ∧
        outcome.stdout = "> > > x\n> ".toUTF8 ∧ outcome.status.code = 0 := by
  have told : (Session.start .unlimited (.ofReadings fun _ => 0)).transcript .graphemes 20
      sampleLines = .ok ([.empty, .empty, "x\n".toUTF8], false) := by
    have evaluated : ((Session.start .unlimited (.ofReadings fun _ => 0)).transcript .graphemes 20
        sampleLines).toOption = some ([.empty, .empty, "x\n".toUTF8], false) := by
      decide +kernel
    cases finished : (Session.start .unlimited (.ofReadings fun _ => 0)).transcript .graphemes 20
        sampleLines with
    | error reason =>
        rw [finished] at evaluated
        cases evaluated
    | ok _ =>
        rw [finished] at evaluated
        exact congrArg Except.ok (Option.some.inj evaluated)
  have agree := @script_agrees_with_dialogue .graphemes inferInstance 20 (.ofReadings fun _ => 0)
    sampleLines _ _ "script" (fun _ => .ok (bytesOf ("\n".intercalate sampleLines)))
    (by decide +kernel) (by decide +kernel) (by decide +kernel) told (by decide) rfl
  rcases agree.1 [] with ⟨outcome, finished, stdout_eq, status_eq⟩
  refine ⟨⟨outcome, finished, ?_, status_eq rfl⟩, ?_⟩
  · rw [stdout_eq]
    decide +kernel
  · rcases agree.2.2 rfl with ⟨answer, answered, answer_eq, answer_status⟩
    refine ⟨answer, answered, ?_, answer_status⟩
    rw [answer_eq]
    decide +kernel

end CommandLine

end Scriptlet
