import Scriptlet.Proofs.Grammar.StatementLines
import Scriptlet.Proofs.Parser.Exactness
import Scriptlet.Proofs.Session.Placement
import Scriptlet.Proofs.Token.Joined

/-!
# Programs written on several lines

With a segmentation that cuts lines, sources in which nothing is wrong can be joined by line feeds:
nothing is wrong with the result, and its program is the programs of the lines one after the other.
No line is continued by the next one, for a line that ends in an open `if` is not followed by an
`else`, with which no program starts.
-/

namespace Scriptlet

open Grammar Segment
open Text (Segmentation)

/-- Nothing is reported when a source is read. -/
def IsClean (segmentation : Segmentation) (source : String) : Prop :=
  Session.staticDiagnostics (Scan.ofString segmentation source)
    (Parser.parseProgram (Scan.ofString segmentation source).tokens.body).2 = []

instance (segmentation : Segmentation) (source : String) :
    Decidable (IsClean segmentation source) :=
  inferInstanceAs (Decidable (_ = []))

variable {segmentation : Segmentation}

/-- Tokens that are the same up to lines as those of a program are read as the same program. -/
theorem isClean_of_derives {source : String} {tokens : List Token} {program : List Stmt}
    (silent : (Scan.ofString segmentation source).errors = [])
    (same : SameTokens (Scan.ofString segmentation source).tokens.body tokens)
    (derives : DerivesProgram strict tokens program) :
    IsClean segmentation source ∧
      Stmt.listWithoutLines (programOf segmentation source) = Stmt.listWithoutLines program := by
  rcases derives.transport same with ⟨other, other_derives, program_eq⟩
  have parsed := Parser.parseProgram_eq other_derives
  refine ⟨?_, ?_⟩
  · rw [IsClean, Session.staticDiagnostics, silent, parsed]
    rfl
  · rw [programOf, parsed, program_eq]

namespace IsClean

variable {source line later : String}

theorem scan_errors (clean : IsClean segmentation source) :
    (Scan.ofString segmentation source).errors = [] :=
  List.map_eq_nil_iff.mp (List.append_eq_nil_iff.mp clean).1

theorem isSound (clean : IsClean segmentation source) :
    IsSound (segmentation.cut source.toList) :=
  Scan.errors_ofSegments_eq_nil_iff.mp clean.scan_errors

theorem derives (clean : IsClean segmentation source) :
    DerivesProgram strict (Scan.ofString segmentation source).tokens.body
      (programOf segmentation source) :=
  Parser.derivesProgram_of_no_error
    (List.map_eq_nil_iff.mp (List.append_eq_nil_iff.mp clean).2)

theorem empty (segmentation : Segmentation) : IsClean segmentation "" := by
  rw [IsClean, Scan.ofString_empty]
  decide +kernel

theorem programOf_empty (segmentation : Segmentation) : programOf segmentation "" = [] := by
  rw [programOf, Scan.ofString_empty, ← List.isEmpty_iff]
  decide +kernel

variable [segmentation.CutsLines]

/-- A line feed between two clean sources does no harm. -/
theorem append (line_clean : IsClean segmentation line) (later_clean : IsClean segmentation later) :
    IsClean segmentation (line ++ "\n" ++ later) ∧
      Stmt.listWithoutLines (programOf segmentation (line ++ "\n" ++ later))
        = Stmt.listWithoutLines (programOf segmentation line)
          ++ Stmt.listWithoutLines (programOf segmentation later) := by
  have chars_eq : (line ++ "\n" ++ later).toList = line.toList ++ '\n' :: later.toList := by
    simp
  rcases isSound_line line_clean.isSound later_clean.isSound with ⟨sound, tokens_eq⟩
  rw [← chars_eq] at sound tokens_eq
  have same : SameTokens (Scan.ofString segmentation (line ++ "\n" ++ later)).tokens.body
      ((Scan.ofString segmentation line).tokens.body
        ++ (Scan.ofString segmentation later).tokens.body) := by
    rw [SameTokens, List.map_append]
    simp only [Scan.ofString, Scan.ofClusters, Scan.tokens_ofSegments]
    exact tokens_eq
  rcases isClean_of_derives (Scan.errors_ofSegments_eq_nil_iff.mpr sound) same
    (line_clean.derives.append later_clean.derives) with ⟨clean, program_eq⟩
  refine ⟨clean, ?_⟩
  rw [program_eq, Stmt.listWithoutLines_eq, List.map_append, ← Stmt.listWithoutLines_eq,
    ← Stmt.listWithoutLines_eq]

/-- Clean lines make a clean text. -/
theorem joined {lines : List String} (clean : ∀ line ∈ lines, IsClean segmentation line) :
    IsClean segmentation ("\n".intercalate lines) ∧
      Stmt.listWithoutLines (programOf segmentation ("\n".intercalate lines))
        = lines.flatMap fun line => Stmt.listWithoutLines (programOf segmentation line) := by
  induction lines with
  | nil => exact ⟨empty segmentation, congrArg Stmt.listWithoutLines (programOf_empty segmentation)⟩
  | cons line later ih =>
      rw [List.forall_mem_cons] at clean
      cases later with
      | nil => simpa [String.intercalate_singleton] using clean.1
      | cons next later =>
          rcases ih clean.2 with ⟨later_clean, later_eq⟩
          rw [String.intercalate_cons_cons, List.flatMap_cons, ← later_eq]
          exact append clean.1 later_clean

/-- A clean line without the carriage returns at its end is the same program. -/
theorem trimmed (clean : IsClean segmentation line) (no_feed : '\n' ∉ line.toList) :
    IsClean segmentation
        (String.ofList (line.toList.rdropWhile fun char => char = '\r' || char = '\n')) ∧
      Stmt.listWithoutLines (programOf segmentation
          (String.ofList (line.toList.rdropWhile fun char => char = '\r' || char = '\n')))
        = Stmt.listWithoutLines (programOf segmentation line) := by
  rcases isSound_trim no_feed clean.isSound with ⟨sound, tokens_eq⟩
  refine isClean_of_derives (Scan.errors_ofSegments_eq_nil_iff.mpr ?_) ?_ clean.derives
  · rw [String.toList_ofList]
    exact sound
  · rw [SameTokens]
    simp only [Scan.ofString, Scan.ofClusters, Scan.tokens_ofSegments, String.toList_ofList]
    exact tokens_eq

end IsClean

end Scriptlet
