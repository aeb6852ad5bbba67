import Scriptlet.Proofs.Token.Writing

/-!
# Tokens of a scan

Every token of a scan takes the longest text at its place, and this text is bounded by ASCII
characters. With a local segmentation, it can therefore be written in front of anything that does
not continue it, and is read as the same token there.
-/

namespace Scriptlet

open Text (Cluster Segmentation)

namespace Segment

open Text (IsPlain)
open Text.Cluster

variable {segmentation : Segmentation}

theorem isPlain_of_isAlphanum {char : Char} (letter : char.isAlphanum = true) : IsPlain char := by
  have no_return : char ≠ '\r' := by
    rintro rfl
    exact absurd letter (by decide)
  delta Char.isAlphanum Char.isAlpha Char.isUpper Char.isLower Char.isDigit at letter
  simp only [Bool.or_eq_true, Bool.and_eq_true, decide_eq_true_eq, UInt32.le_iff_toNat_le,
    ge_iff_le] at letter
  have value_eq : char.toNat = char.val.toNat := rfl
  have upper_last : 'Z'.val.toNat = 90 := rfl
  have lower_last : 'z'.val.toNat = 122 := rfl
  have digit_last : '9'.val.toNat = 57 := rfl
  have upper_first : 'A'.val.toNat = 65 := rfl
  have lower_first : 'a'.val.toNat = 97 := rfl
  have digit_first : '0'.val.toNat = 48 := rfl
  exact ⟨show char.toNat < 0x80 by omega, no_return⟩

/-- Whether a cluster is a plain character alone. -/
def IsAlone (cluster : Cluster) : Prop :=
  ∃ char : Char, cluster = single char ∧ IsPlain char

theorem isAlone_of_isChar {char : Char} {cluster : Cluster} (same : isChar char cluster = true)
    (plain : IsPlain char) : IsAlone cluster :=
  ⟨char, of_decide_eq_true same, plain⟩

theorem isAlone_of_rest {cluster : Cluster} (alone : cluster.rest = [])
    (plain : IsPlain cluster.first) : IsAlone cluster := by
  rcases cluster with ⟨first, rest⟩
  exact ⟨first, congrArg (Cluster.mk first) alone, plain⟩

theorem isAlone_of_isDigit {cluster : Cluster} (digit : isDigit cluster = true) :
    IsAlone cluster := by
  simp only [isDigit, Bool.and_eq_true, decide_eq_true_eq] at digit
  refine isAlone_of_rest digit.1 (isPlain_of_isAlphanum ?_)
  rw [Char.isAlphanum, digit.2, Bool.or_true]

theorem isAlone_of_isLetter {cluster : Cluster} (letter : isLetter cluster = true) :
    IsAlone cluster := by
  simp only [isLetter, Bool.and_eq_true, Bool.or_eq_true, decide_eq_true_eq] at letter
  refine isAlone_of_rest letter.1 ?_
  rcases letter.2 with alpha | underscore
  · apply isPlain_of_isAlphanum
    rw [Char.isAlphanum, alpha, Bool.true_or]
  · rw [underscore]
    decide

theorem isAlone_of_isWordPart {cluster : Cluster} (part : isWordPart cluster = true) :
    IsAlone cluster := by
  rcases Bool.or_eq_true _ _ ▸ part with letter | digit
  · exact isAlone_of_isLetter letter
  · exact isAlone_of_isDigit digit

/-- Symbols are plain characters. -/
theorem isAlone_of_symbol {cluster : Cluster} {symbol : Token.Kind}
    (found : symbol? cluster = some symbol) : IsAlone cluster := by
  rw [symbol?] at found
  split at found
  next alone =>
    refine isAlone_of_rest alone ?_
    have holds := List.find?_some found
    have spelled : symbol.spelling?.map String.toList = some [cluster.first] := by
      rw [of_decide_eq_true holds]
      simp
    generalize cluster.first = char at spelled
    cases symbol <;> simp [Token.Kind.spelling?] at spelled <;> subst spelled <;>
      decide
  next => cases found

theorem bounded_of_isAlone [segmentation.IsLocal] {first : Cluster} {others : List Cluster}
    (first_alone : IsAlone first) (all_alone : ∀ cluster ∈ others, IsAlone cluster) :
    segmentation.Bounded (first :: others) := by
  induction others generalizing first with
  | nil =>
      rcases first_alone with ⟨char, rfl, plain⟩
      exact Segmentation.bounded_single plain
  | cons second others ih =>
      rcases first_alone with ⟨char, rfl, plain⟩
      have following_bounded := ih (all_alone second List.mem_cons_self)
        (fun cluster cluster_mem => all_alone cluster (List.mem_cons_of_mem second cluster_mem))
      exact (Segmentation.bounded_single plain).append following_bounded

end Segment

/-- A text of plain characters is cut into these. -/
theorem Text.Segmentation.cut_of_plain {segmentation : Segmentation} [segmentation.IsLocal]
    {text : List Char} (plain : ∀ char ∈ text, Text.IsPlain char) :
    segmentation.cut text = text.map Cluster.single := by
  cases text with
  | nil => exact segmentation.cut_nil
  | cons first others =>
      rw [List.forall_mem_cons] at plain
      have all_alone : ∀ cluster ∈ others.map Cluster.single, Segment.IsAlone cluster := by
        rw [List.forall_mem_map]
        exact fun char char_mem => ⟨char, rfl, plain.2 char char_mem⟩
      have bounded : segmentation.Bounded (Cluster.single first :: others.map Cluster.single) :=
        Segment.bounded_of_isAlone ⟨first, rfl, plain.1⟩ all_alone
      have cut_eq := bounded.cut_eq
      rwa [← List.map_cons, Cluster.charsOf_map_single] at cut_eq

/-- How a text of plain characters is scanned. -/
theorem Scan.ofString_of_plain {segmentation : Segmentation} [segmentation.IsLocal] {text : String}
    (plain : ∀ char ∈ text.toList, Text.IsPlain char) :
    ofString segmentation text = ofClusters (text.toList.map Cluster.single) := by
  rw [ofString, segmentation.cut_of_plain plain]

namespace Segment

open Text (IsPlain)
open Text.Cluster

variable {segmentation : Segmentation}

theorem isAlone_of_mem_number {following : List Cluster} :
    ∀ cluster ∈ following.take (numberLength following), IsAlone cluster := by
  intro cluster cluster_mem
  rw [numberLength, List.take_add, take_length_takeWhile] at cluster_mem
  rcases List.mem_append.mp cluster_mem with digit_mem | fraction_mem
  · exact isAlone_of_isDigit (holds_of_mem_takeWhile cluster digit_mem)
  · rcases fraction_shape (following.drop (following.takeWhile isDigit).length) with
      ⟨fraction_eq, -⟩ | ⟨point, places, fraction_eq, -, is_point, -, all⟩
    · rw [fraction_eq] at fraction_mem
      cases fraction_mem
    · rw [fraction_eq] at fraction_mem
      rcases List.mem_cons.mp fraction_mem with rfl | place_mem
      · exact isAlone_of_isChar is_point (by decide)
      · exact isAlone_of_isDigit (all cluster place_mem)

theorem isAlone_of_mem_symbol {symbol kind : Token.Kind} {following : List Cluster} {length : Nat}
    (read : measureSymbol symbol following = (.token kind, length)) :
    ∀ cluster ∈ following.take length, IsAlone cluster := by
  intro cluster cluster_mem
  rcases measureSymbol_cases read with ⟨-, rfl⟩ | ⟨-, rfl, next, next_mem, is_equal⟩
  · cases cluster_mem
  · cases following with
    | nil => cases next_mem
    | cons head following =>
        cases next_mem
        rw [List.take_succ_cons, List.take_zero, List.mem_singleton] at cluster_mem
        rw [cluster_mem]
        exact isAlone_of_isChar is_equal (by decide)

/-- No symbol is a string, alone or with what follows it. -/
theorem ne_string_of_symbol {first : Cluster} {symbol kind : Token.Kind}
    {following : List Cluster} {length : Nat} (found : symbol? first = some symbol)
    (read : measureSymbol symbol following = (.token kind, length)) : kind ≠ .string := by
  rintro rfl
  rcases measureSymbol_cases read with ⟨rfl, -⟩ | ⟨extended, -, -⟩
  · rw [symbol?] at found
    split at found
    next => exact absurd (List.mem_of_find?_eq_some found) (by decide)
    next => cases found
  · cases symbol <;> cases extended

/-- Every token but a string consists of plain characters. A string is what stands between two
quotes. -/
theorem token_shape {first : Cluster} {following : List Cluster} {kind : Token.Kind} {length : Nat}
    (read : measure first following = (.token kind, length)) :
    kind ≠ .string ∧ (∀ cluster ∈ first :: following.take length, IsAlone cluster)
      ∨ kind = .string ∧ ∃ body, first :: following.take length
          = single '"' :: (body ++ [single '"']) ∧ ∀ cluster ∈ body, isChar '"' cluster = false := by
  rw [measure] at read
  split at read
  · cases read
  split at read
  next is_quote =>
    rcases measureString_cases read with ⟨rfl, closed⟩
    rcases exists_body closed with ⟨body, others, rfl, rfl, no_quote⟩
    refine .inr ⟨rfl, body, ?_, no_quote⟩
    rw [of_decide_eq_true is_quote, List.take_append, List.take_of_length_le (Nat.le_succ _),
      Nat.add_sub_cancel_left]
    rfl
  split at read
  next digit =>
    cases read
    exact .inl ⟨by decide, List.forall_mem_cons.mpr
      ⟨isAlone_of_isDigit digit, isAlone_of_mem_number⟩⟩
  split at read
  next letter =>
    have no_string : kind ≠ .string := by
      rintro rfl
      exact absurd (kind_of_measureWord read) (by decide)
    cases read
    rw [take_length_takeWhile]
    refine .inl ⟨no_string, List.forall_mem_cons.mpr ⟨isAlone_of_isLetter letter, ?_⟩⟩
    intro cluster cluster_mem
    exact isAlone_of_isWordPart (holds_of_mem_takeWhile cluster cluster_mem)
  split at read
  next found =>
    rcases measureSlash_cases read with ⟨rfl, rfl⟩
    exact .inl ⟨by decide, List.forall_mem_cons.mpr ⟨isAlone_of_symbol found, by simp⟩⟩
  next found =>
    exact .inl ⟨ne_string_of_symbol found read, List.forall_mem_cons.mpr
      ⟨isAlone_of_symbol found, isAlone_of_mem_symbol read⟩⟩
  next => cases read

theorem text_single {cluster : Cluster} (alone : cluster.rest = []) (following : List Cluster) :
    Cluster.text (cluster :: following)
      = String.singleton cluster.first ++ Cluster.text following := by
  apply String.toList_inj.mp
  simp [Cluster.text, charsOf, chars, alone]

/-- A symbol is one character, which spells it. -/
theorem spelling_of_symbol {cluster : Cluster} {symbol : Token.Kind}
    (found : symbol? cluster = some symbol) :
    cluster.rest = [] ∧ symbol.spelling? = some (.singleton cluster.first) := by
  rw [symbol?] at found
  split at found
  next alone =>
    have holds := List.find?_some found
    exact ⟨alone, of_decide_eq_true holds⟩
  next => cases found

theorem spelling_of_withEqual {symbol longer : Token.Kind} {spelling : String}
    (extended : withEqual? symbol = some longer) (spelled : symbol.spelling? = some spelling) :
    longer.spelling? = some (spelling ++ "=") := by
  cases symbol <;> cases extended <;> cases spelled <;> rfl

/-- The text of a token whose kind has a spelling is this spelling. -/
theorem text_of_spelling {first : Cluster} {following : List Cluster} {kind : Token.Kind}
    {length : Nat} (read : measure first following = (.token kind, length)) {spelling : String}
    (spelled : kind.spelling? = some spelling) :
    Cluster.text (first :: following.take length) = spelling := by
  rw [measure] at read
  split at read
  · cases read
  split at read
  · rcases measureString_cases read with ⟨rfl, -⟩
    cases spelled
  split at read
  · cases read
    cases spelled
  split at read
  · cases found : Token.Kind.keyword?
        (Cluster.text (first :: following.takeWhile isWordPart)) with
    | none =>
        simp only [measureWord, found, Prod.mk.injEq, Piece.token.injEq] at read
        rcases read with ⟨rfl, -⟩
        cases spelled
    | some reserved =>
        have holds := List.find?_some found
        simp only [measureWord, found, Prod.mk.injEq, Piece.token.injEq] at read
        rcases read with ⟨rfl, rfl⟩
        rw [take_length_takeWhile]
        exact Option.some.inj ((of_decide_eq_true holds).symm.trans spelled)
  split at read
  next found =>
    rcases measureSlash_cases read with ⟨rfl, rfl⟩
    rcases spelling_of_symbol found with ⟨alone, first_eq⟩
    rw [text_single alone]
    exact (String.append_empty ..).trans (Option.some.inj (first_eq.symm.trans spelled))
  next symbol _ found =>
    rcases spelling_of_symbol found with ⟨alone, first_eq⟩
    rcases measureSymbol_cases read with ⟨rfl, rfl⟩ | ⟨extended, rfl, next, next_mem, is_equal⟩
    · rw [text_single alone]
      exact (String.append_empty ..).trans (Option.some.inj (first_eq.symm.trans spelled))
    · have longer_eq := spelling_of_withEqual extended first_eq
      cases following with
      | nil => cases next_mem
      | cons head following =>
          cases next_mem
          have next_eq : next = single '=' := of_decide_eq_true is_equal
          rw [text_single alone, next_eq]
          exact Option.some.inj (longer_eq.symm.trans spelled)
  next => cases read

/-- The text of a token that stands in a source is bounded. -/
theorem bounded_of_measure [segmentation.IsLocal] {first : Cluster} {following : List Cluster}
    {kind : Token.Kind} {length : Nat} (read : measure first following = (.token kind, length))
    {source : List Char} {before after : List Cluster}
    (cut_eq : segmentation.cut source = before ++ (first :: following.take length) ++ after) :
    segmentation.Bounded (first :: following.take length) := by
  rcases token_shape read with ⟨-, all_alone⟩ | ⟨-, body, text_eq, -⟩
  · exact bounded_of_isAlone (all_alone first List.mem_cons_self)
      (fun cluster cluster_mem => all_alone cluster (List.mem_cons_of_mem first cluster_mem))
  · rw [text_eq] at cut_eq ⊢
    have quote_plain : IsPlain '"' := by decide
    apply Segmentation.bounded_of_part cut_eq
    · exact ⟨'"', _, charsOf_cons _ _, quote_plain⟩
    · refine ⟨charsOf (single '"' :: body), '"', ?_, quote_plain⟩
      rw [← List.cons_append, charsOf_append]
      rfl

/-- The tokens among the segments of a source, each with the place where it was read. -/
theorem exists_measure_of_mem [segmentation.IsLocal] {source : List Char}
    {before clusters : List Cluster} (cut_eq : segmentation.cut source = before ++ clusters)
    {kind : Token.Kind} {text : List Cluster}
    (segment_mem : ⟨.token kind, text⟩ ∈ ofClusters clusters) :
    ∃ first following length, text = first :: following.take length ∧
      measure first following = (.token kind, length) ∧ segmentation.Bounded text := by
  fun_induction ofClusters clusters generalizing before with
  | case1 => cases segment_mem
  | case2 first following piece length read ih =>
      have whole_eq : segmentation.cut source
          = before ++ (first :: following.take length) ++ following.drop length := by
        rw [cut_eq, List.append_assoc, List.cons_append, List.take_append_drop]
      rcases List.mem_cons.mp segment_mem with here | later
      · cases here
        exact ⟨first, following, length, rfl, read, bounded_of_measure read whole_eq⟩
      · exact ih whole_eq later

end Segment

/-- A token that stands in some source. -/
def Token.Scanned (segmentation : Segmentation) (token : Token) : Prop :=
  ∃ source : String, token ∈ (Scan.ofString segmentation source).tokens.body

theorem Scan.exists_segment_of_mem {line : Nat} {segments : List Segment} {token : Token}
    (token_mem : token ∈ (ofSegments line segments).tokens.body) :
    ∃ kind text place, ⟨.token kind, text⟩ ∈ segments ∧ token = .ofClusters kind text place := by
  induction segments generalizing line with
  | nil => cases token_mem
  | cons segment segments ih =>
      have tail : token ∈ (ofSegments (line + segment.newlines) segments).tokens.body →
          ∃ kind text place, ⟨.token kind, text⟩ ∈ segment :: segments ∧
            token = .ofClusters kind text place := by
        intro later
        rcases ih later with ⟨kind, text, place, segment_mem, token_eq⟩
        exact ⟨kind, text, place, List.mem_cons_of_mem segment segment_mem, token_eq⟩
      rcases segment with ⟨piece, text⟩
      cases piece with
      | token kind =>
          rcases List.mem_cons.mp token_mem with here | later
          · exact ⟨kind, text, line, List.mem_cons_self, here⟩
          · exact tail later
      | _ => exact tail token_mem

namespace Token.Scanned

variable {segmentation : Segmentation} [segmentation.IsLocal] {token : Token}

/-- A scanned token has a text that is read as this token wherever nothing continues it. -/
theorem exists_measure (scanned : token.Scanned segmentation) :
    ∃ first following length, Segment.measure first following = (.token token.kind, length) ∧
      token = .ofClusters token.kind (first :: following.take length) token.line ∧
      segmentation.Bounded (first :: following.take length) := by
  rcases scanned with ⟨source, token_mem⟩
  rcases Scan.exists_segment_of_mem token_mem with ⟨kind, text, place, segment_mem, rfl⟩
  rcases Segment.exists_measure_of_mem (List.nil_append _).symm segment_mem with
    ⟨first, following, length, rfl, read, bounded⟩
  exact ⟨first, following, length, read, rfl, bounded⟩

/-- A scanned token is written by its own text. -/
theorem exists_writes (scanned : token.Scanned segmentation) :
    ∃ text, Cluster.text text = token.lexeme ∧
      Writes segmentation text [token] (Segment.continues token.kind) := by
  rcases scanned.exists_measure with ⟨first, following, length, read, token_eq, bounded⟩
  refine ⟨first :: following.take length, congrArg Token.lexeme token_eq.symm, ?_⟩
  have writes := Writes.of_measure read bounded token.line
  rw [← token_eq] at writes
  exact writes

/-- A scanned token is spelled as its kind, if its kind has a spelling. -/
theorem lexeme_eq (scanned : token.Scanned segmentation) {spelling : String}
    (spelled : token.kind.spelling? = some spelling) : token.lexeme = spelling := by
  rcases scanned.exists_measure with ⟨first, following, length, read, token_eq, -⟩
  rw [token_eq]
  exact Segment.text_of_spelling read spelled

end Token.Scanned

end Scriptlet
