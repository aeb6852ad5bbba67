import Scriptlet.Proofs.Token.LexicalGrammar

/-!
# Longest match

Scanning divides a source as its lexical grammar says, and in the only way there is. Nothing that is
read stops short or runs on: the lengths that are measured are those of the longest texts.
-/

namespace Scriptlet

open Text (Cluster)
open Text.Cluster (single)

namespace Segment

/-! ## Where the first cluster leads -/

theorem measure_of_isLetter {first : Cluster} (letter : isLetter first = true)
    (following : List Cluster) : measure first following = measureWord first following := by
  obtain ⟨no_blank, no_quote, no_digit⟩ := classes_of_letter letter
  simp [measure, no_blank, no_quote, no_digit, letter]

theorem measure_of_slash {first : Cluster} (found : symbol? first = some .slash)
    (following : List Cluster) : measure first following = measureSlash following := by
  obtain ⟨no_blank, no_quote, no_digit, no_letter⟩ := classes_of_symbol found
  simp [measure, no_blank, no_quote, no_digit, no_letter, found]

theorem measure_of_symbol {first : Cluster} {symbol : Token.Kind}
    (found : symbol? first = some symbol) (no_slash : symbol ≠ .slash)
    (following : List Cluster) : measure first following = measureSymbol symbol following := by
  obtain ⟨no_blank, no_quote, no_digit, no_letter⟩ := classes_of_symbol found
  cases symbol with
  | slash => exact absurd rfl no_slash
  | _ => simp [measure, no_blank, no_quote, no_digit, no_letter, found]

/-! ## The longest tokens -/

theorem length_le_takeWhile {property : Cluster → Bool} {text following : List Cluster}
    (all : ∀ cluster ∈ text, property cluster = true) (isPrefix : text <+: following) :
    text.length ≤ (following.takeWhile property).length := by
  obtain ⟨after, rfl⟩ := isPrefix
  rw [List.takeWhile_append_of_pos all, List.length_append]
  exact Nat.le_add_right _ _

/-- Nothing longer than what is measured continues a digit to a number. -/
theorem length_le_numberLength {others following : List Cluster} (ends : EndsNumber others)
    (isPrefix : others <+: following) : others.length ≤ numberLength following := by
  rcases ends with all | ⟨digits, places, rfl, all, some_place, all_places⟩
  · exact Nat.le_trans (length_le_takeWhile all isPrefix) (Nat.le_add_right _ _)
  · obtain ⟨after, rfl⟩ := isPrefix
    rw [List.append_assoc, List.cons_append]
    have digits_eq : (digits ++ single '.' :: (places ++ after)).takeWhile isDigit = digits :=
      takeWhile_append_of_lacks all (.cons (by decide) _)
    have places_le := length_le_takeWhile all_places (List.prefix_append places after)
    have places_pos := List.length_pos_iff.mpr some_place
    have fractional : isChar '.' (single '.') = true ∧
        0 < ((places ++ after).takeWhile isDigit).length := ⟨rfl, by omega⟩
    simp only [numberLength, digits_eq, List.drop_left, fractionLength, if_pos fractional,
      List.length_append, List.length_cons]
    omega

theorem forms_number {first : Cluster} (digit : isDigit first = true) (following : List Cluster) :
    Forms .number (first :: following.take (numberLength following)) := by
  have isDigits : IsDigits (first :: following.takeWhile isDigit) :=
    ⟨by simp, List.forall_mem_cons.mpr ⟨digit, holds_of_mem_takeWhile⟩⟩
  rw [numberLength, List.take_add, take_length_takeWhile]
  rcases fraction_shape (following.drop (following.takeWhile isDigit).length) with
    ⟨fraction_eq, -⟩ | ⟨point, places, fraction_eq, -, is_point, some_place, all⟩
  · rw [fraction_eq, List.append_nil]
    exact .integer isDigits
  · rw [fraction_eq, of_decide_eq_true is_point]
    exact .fraction isDigits ⟨some_place, all⟩

/-- Only the texts that start with the same cluster can be longer. -/
theorem isLongest_cons {kind : Token.Kind} {first : Cluster} {tail following : List Cluster}
    (forms : Forms kind (first :: tail)) (isPrefix : tail <+: following)
    (longest : ∀ other others, FirstCase other first others → others <+: following →
      others.length ≤ tail.length) : IsLongest kind (first :: tail) (first :: following) where
  forms := forms
  isPrefix := List.cons_prefix_cons.mpr ⟨rfl, isPrefix⟩
  longest := by
    intro other longer longer_forms longer_isPrefix
    obtain ⟨head, others, rfl, cases⟩ := longer_forms.exists_first
    obtain ⟨rfl, others_isPrefix⟩ := List.cons_prefix_cons.mp longer_isPrefix
    exact Nat.succ_le_succ (longest other others cases others_isPrefix)

theorem isLongest_number {first : Cluster} (digit : isDigit first = true)
    (following : List Cluster) :
    IsLongest .number (first :: following.take (numberLength following)) (first :: following) := by
  apply isLongest_cons (forms_number digit following) (List.take_prefix ..)
  intro other others cases isPrefix
  rw [List.length_take_of_le (numberLength_le following)]
  cases cases with
  | digit _ _ ends => exact length_le_numberLength ends isPrefix
  | letter letter => exact absurd digit (not_isDigit_of_isLetter letter)
  | symbol found | withEqual found =>
      exact absurd digit (not_isDigit_of_symbol found)

theorem isLongest_word {first : Cluster} (letter : isLetter first = true)
    (following : List Cluster) {kind : Token.Kind} {length : Nat}
    (read : measureWord first following = (.token kind, length)) :
    IsLongest kind (first :: following.take length) (first :: following) := by
  cases read
  rw [take_length_takeWhile]
  apply isLongest_cons (.word letter holds_of_mem_takeWhile) (List.takeWhile_prefix _)
  intro other others cases isPrefix
  cases cases with
  | digit digit => exact absurd digit (not_isDigit_of_isLetter letter)
  | letter _ parts => exact length_le_takeWhile parts isPrefix
  | symbol found | withEqual found =>
      exact absurd letter (not_isLetter_of_symbol found)

theorem mem_symbols_of_symbol {first : Cluster} {symbol : Token.Kind}
    (found : symbol? first = some symbol) : symbol ∈ Token.Kind.symbols := by
  rw [symbol?] at found
  split at found
  · exact List.mem_of_find?_eq_some found
  · cases found

theorem mem_symbols_of_withEqual {symbol kind : Token.Kind}
    (extended : withEqual? symbol = some kind) : kind ∈ Token.Kind.symbols := by
  cases symbol <;> cases extended <;> decide

theorem forms_symbol {first : Cluster} {symbol : Token.Kind}
    (found : symbol? first = some symbol) : Forms symbol [first] := by
  have symbol_mem := mem_symbols_of_symbol found
  rcases first with ⟨char, rest⟩
  obtain ⟨rfl, spelled⟩ := spelling_of_symbol found
  simpa [single] using Forms.operator symbol_mem spelled

theorem forms_withEqual {first : Cluster} {symbol kind : Token.Kind}
    (found : symbol? first = some symbol) (extended : withEqual? symbol = some kind) :
    Forms kind [first, single '='] := by
  rcases first with ⟨char, rest⟩
  obtain ⟨rfl, spelled⟩ := spelling_of_symbol found
  have kind_mem := mem_symbols_of_withEqual extended
  simpa [single] using Forms.operator kind_mem (spelling_of_withEqual extended spelled)

theorem isLongest_symbol {first : Cluster} {symbol : Token.Kind}
    (found : symbol? first = some symbol) {following : List Cluster} {kind : Token.Kind}
    {length : Nat} (read : measureSymbol symbol following = (.token kind, length)) :
    IsLongest kind (first :: following.take length) (first :: following) := by
  have forms : Forms kind (first :: following.take length) := by
    rcases measureSymbol_cases read with ⟨rfl, rfl⟩ | ⟨extended, rfl, next, next_mem, is_equal⟩
    · exact forms_symbol found
    · obtain ⟨others, rfl⟩ := List.head?_eq_some_iff.mp next_mem
      rw [of_decide_eq_true is_equal]
      exact forms_withEqual found extended
  apply isLongest_cons forms (List.take_prefix ..)
  intro other others cases isPrefix
  cases cases with
  | digit digit => exact absurd digit (not_isDigit_of_symbol found)
  | letter letter => exact absurd letter (not_isLetter_of_symbol found)
  | symbol _ others_eq =>
      rw [others_eq]
      exact Nat.zero_le _
  | withEqual same extended others_eq =>
      -- The equality sign is there, so it was read with the symbol.
      cases Option.some.inj (same.symm.trans found)
      rw [others_eq] at isPrefix ⊢
      obtain ⟨after, rfl⟩ := isPrefix
      have longer : measureSymbol symbol ([single '='] ++ after) = (.token other, 1) := by
        simp [measureSymbol, extended, isChar]
      cases longer.symm.trans read
      exact Nat.le_refl _

/-! ## Comments and strings -/

theorem closingLength?_of_closes {text : List Cluster} (closes : closingMark <+: text) :
    closingLength? text = some 2 := by
  obtain ⟨after, rfl⟩ := closes
  rfl

theorem closingLength?_cons {head : Cluster} {text : List Cluster}
    (open_here : ¬closingMark <+: head :: text) :
    closingLength? (head :: text) = (closingLength? text).map (· + 1) := by
  cases text with
  | nil => rfl
  | cons next text =>
      have no_mark : ¬(isChar '*' head = true ∧ isChar '/' next = true) := by
        rintro ⟨star, slash⟩
        rw [of_decide_eq_true star, of_decide_eq_true slash] at open_here
        exact open_here (List.prefix_append closingMark text)
      rw [closingLength?, if_neg no_mark]

theorem closingLength?_eq_none_iff {text : List Cluster} :
    closingLength? text = none ↔ ¬closingMark <:+: text := by
  induction text with
  | nil => exact iff_of_true rfl (by simp [closingMark])
  | cons head text ih =>
      by_cases closes : closingMark <+: head :: text
      · rw [closingLength?_of_closes closes]
        exact iff_of_false (by simp) (not_not_intro closes.isInfix)
      · rw [closingLength?_cons closes, Option.map_eq_none_iff, ih, List.infix_cons_iff,
          or_iff_right closes]

/-- What is before the closing mark of a block comment does not close it. -/
theorem closingLength?_eq_some_iff {text : List Cluster} {length : Nat} :
    closingLength? text = some length ↔
      ∃ body after, text = body ++ closingMark ++ after ∧ length = body.length + 2 ∧
        ¬closingMark <:+: body ++ [single '*'] := by
  constructor
  · intro closed
    induction text generalizing length with
    | nil => cases closed
    | cons head text ih =>
        by_cases closes : closingMark <+: head :: text
        · rw [closingLength?_of_closes closes] at closed
          cases closed
          obtain ⟨after, text_eq⟩ := closes
          exact ⟨[], after, text_eq.symm, rfl, fun contained => absurd contained.length_le (by decide)⟩
        · rw [closingLength?_cons closes] at closed
          obtain ⟨shorter, found, rfl⟩ := Option.map_eq_some_iff.mp closed
          obtain ⟨body, after, rfl, rfl, first_closing⟩ := ih found
          refine ⟨head :: body, after, rfl, rfl, ?_⟩
          rw [List.cons_append, List.infix_cons_iff, not_or]
          refine ⟨fun early => closes (early.trans ?_), first_closing⟩
          exact ⟨single '/' :: after, by simp [closingMark]⟩
  · rintro ⟨body, after, rfl, rfl, first_closing⟩
    induction body with
    | nil => rfl
    | cons head body ih =>
        rw [List.cons_append, List.infix_cons_iff, not_or] at first_closing
        have open_here : ¬closingMark <+: head :: (body ++ closingMark ++ after) := by
          intro closes
          have short : head :: (body ++ [single '*']) <+: head :: (body ++ closingMark ++ after) :=
            ⟨single '/' :: after, by simp [closingMark]⟩
          exact first_closing.1 (List.prefix_of_prefix_length_le closes short (by simp [closingMark]))
        rw [List.cons_append, List.cons_append, closingLength?_cons open_here, ih first_closing.2]
        rfl

/-- A string that is not closed takes all there is. -/
theorem measureString_of_open {following : List Cluster} (no_quote : single '"' ∉ following) :
    measureString following = (.openString, following.length) := by
  have all : ∀ cluster ∈ following, (!isChar '"' cluster) = true := by
    intro cluster cluster_mem
    simp only [isChar, Bool.not_eq_true', decide_eq_false_iff_not]
    rintro rfl
    exact no_quote cluster_mem
  have body_eq := takeWhile_append_of_lacks all (lacks_nil _)
  rw [List.append_nil] at body_eq
  simp only [measureString, body_eq, Nat.lt_irrefl, if_false]

theorem measureString_of_closed {body : List Cluster} (no_quote : single '"' ∉ body)
    (after : List Cluster) :
    measureString (body ++ [single '"'] ++ after)
      = (.token .string, (body ++ [single '"']).length) := by
  rw [List.append_assoc, List.length_append]
  apply measureString_of_body
  intro cluster cluster_mem
  simp only [isChar, decide_eq_false_iff_not]
  rintro rfl
  exact no_quote cluster_mem

theorem fits_string {following : List Cluster} {piece : Piece} {length : Nat}
    (read : measureString following = (piece, length)) :
    Fits ⟨piece, single '"' :: following.take length⟩ (following.drop length) := by
  by_cases closed : single '"' ∈ following
  · obtain ⟨body, after, rfl, no_quote⟩ := List.eq_append_cons_of_mem closed
    rw [List.append_cons] at read ⊢
    cases (measureString_of_closed no_quote after).symm.trans read
    rw [List.take_left, List.drop_left]
    exact .string no_quote
  · cases (measureString_of_open closed).symm.trans read
    rw [List.take_length, List.drop_length]
    exact .openString closed

theorem measureSlash_of_lineComment {body after : List Cluster}
    (one_line : ∀ cluster ∈ body, cluster ∉ lineEnds)
    (stopped : ∀ next ∈ after.head?, next ∈ lineEnds) :
    measureSlash (single '/' :: body ++ after) = (.lineComment, (single '/' :: body).length) := by
  have body_eq : (body ++ after).takeWhile (!isNewline ·) = body := by
    apply takeWhile_append_of_lacks
    · intro cluster cluster_mem
      rw [Bool.not_eq_true', Bool.eq_false_iff, Ne, isNewline_iff]
      exact one_line cluster cluster_mem
    · intro next next_mem
      rw [Bool.not_eq_false', isNewline_iff]
      exact stopped next next_mem
  simp [measureSlash, isChar, body_eq]

theorem measureSlash_star (following : List Cluster) :
    measureSlash (single '*' :: following) =
      match closingLength? following with
      | some length => (.blockComment, length + 1)
      | none => (.openComment, following.length + 1) :=
  rfl

theorem measureSlash_of_closed {body : List Cluster}
    (first_closing : ¬closingMark <:+: body ++ [single '*']) (after : List Cluster) :
    measureSlash (single '*' :: (body ++ closingMark) ++ after)
      = (.blockComment, (single '*' :: (body ++ closingMark)).length) := by
  have closed := closingLength?_eq_some_iff.mpr ⟨body, after, rfl, rfl, first_closing⟩
  rw [List.cons_append, measureSlash_star, closed]
  simp [closingMark]

theorem measureSlash_of_open {body : List Cluster} (no_closing : ¬closingMark <:+: body) :
    measureSlash (single '*' :: body) = (.openComment, (single '*' :: body).length) := by
  rw [measureSlash_star, closingLength?_eq_none_iff.mpr no_closing]
  rfl

theorem measureSlash_of_no_comment {following : List Cluster}
    (no_comment : ∀ mark ∈ commentMarks, ¬mark <+: single '/' :: following) :
    measureSlash following = (.token .slash, 0) := by
  cases following with
  | nil => rfl
  | cons second following =>
      have no_mark : ∀ char, [single '/', single char] ∈ commentMarks →
          isChar char second = false := by
        intro char mark_mem
        rw [isChar, decide_eq_false_iff_not]
        rintro rfl
        exact no_comment _ mark_mem (List.prefix_append _ following)
      have no_slash := no_mark '/' (by simp [commentMarks])
      have no_star := no_mark '*' (by simp [commentMarks])
      simp [measureSlash, no_slash, no_star]

theorem exists_line (following : List Cluster) :
    ∃ line after, following = line ++ after ∧ (∀ cluster ∈ line, cluster ∉ lineEnds) ∧
      ∀ next ∈ after.head?, next ∈ lineEnds := by
  refine ⟨following.takeWhile (!isNewline ·), following.dropWhile (!isNewline ·),
    List.takeWhile_append_dropWhile.symm, ?_, ?_⟩
  · intro cluster cluster_mem
    have holds := holds_of_mem_takeWhile cluster cluster_mem
    rwa [Bool.not_eq_true', Bool.eq_false_iff, Ne, isNewline_iff] at holds
  · intro next next_mem
    have stopped := List.head?_dropWhile_not (!isNewline ·) following
    rw [next_mem] at stopped
    exact isNewline_iff.mp (by simpa using stopped)

/-- What opens a comment after a slash. -/
theorem exists_of_commentMark {mark following : List Cluster} (mark_mem : mark ∈ commentMarks)
    (opens : mark <+: single '/' :: following) :
    ∃ body, following = single '/' :: body ∨ following = single '*' :: body := by
  simp only [commentMarks, List.mem_cons, List.not_mem_nil, or_false] at mark_mem
  rcases mark_mem with rfl | rfl
  · obtain ⟨body, rfl⟩ := (List.cons_prefix_cons.mp opens).2
    exact ⟨body, .inl rfl⟩
  · obtain ⟨body, rfl⟩ := (List.cons_prefix_cons.mp opens).2
    exact ⟨body, .inr rfl⟩

/-- What starts with a slash is a comment or the slash. -/
theorem fits_slash {following : List Cluster} {piece : Piece} {length : Nat}
    (read : measureSlash following = (piece, length)) :
    Fits ⟨piece, single '/' :: following.take length⟩ (following.drop length) := by
  by_cases opens : ∃ mark ∈ commentMarks, mark <+: single '/' :: following
  · obtain ⟨mark, mark_mem, opens⟩ := opens
    obtain ⟨body, rfl | rfl⟩ := exists_of_commentMark mark_mem opens
    · obtain ⟨line, after, rfl, one_line, stopped⟩ := exists_line body
      rw [← List.cons_append] at read ⊢
      cases (measureSlash_of_lineComment one_line stopped).symm.trans read
      rw [List.take_left, List.drop_left]
      exact .lineComment one_line stopped
    · by_cases closes : closingMark <:+: body
      · have closed := mt closingLength?_eq_none_iff.mp (not_not_intro closes)
        obtain ⟨closing, closed⟩ := Option.ne_none_iff_exists'.mp closed
        obtain ⟨body, after, rfl, -, first_closing⟩ := closingLength?_eq_some_iff.mp closed
        rw [← List.cons_append] at read ⊢
        cases (measureSlash_of_closed first_closing after).symm.trans read
        rw [List.take_left, List.drop_left]
        exact .blockComment first_closing
      · cases (measureSlash_of_open closes).symm.trans read
        rw [List.take_length, List.drop_length]
        exact .openComment closes
  · have no_comment : ∀ mark ∈ commentMarks, ¬mark <+: single '/' :: following :=
      fun mark mark_mem opens_here => opens ⟨mark, mark_mem, opens_here⟩
    cases (measureSlash_of_no_comment no_comment).symm.trans read
    have isLongest : IsLongest .slash [single '/'] (single '/' :: following) :=
      isLongest_symbol (show symbol? (single '/') = some .slash by decide)
        (show measureSymbol .slash following = (.token .slash, 0) from rfl)
    exact .token isLongest no_comment

/-! ## Every segment -/

theorem exists_measureSymbol (symbol : Token.Kind) (following : List Cluster) :
    ∃ kind length, measureSymbol symbol following = (.token kind, length) := by
  simp only [measureSymbol]
  split
  · split <;> exact ⟨_, _, rfl⟩
  · exact ⟨_, _, rfl⟩

theorem eq_single_of_slash {first : Cluster} (found : symbol? first = some .slash) :
    first = single '/' := by
  rcases first with ⟨char, rest⟩
  obtain ⟨rfl, spelled⟩ := spelling_of_symbol found
  have chars_eq := congrArg String.toList (Option.some.inj spelled)
  rw [String.toList_singleton] at chars_eq
  cases chars_eq
  rfl

/-- Where a token starts and no comment does, the longest token is measured. -/
theorem exists_isLongest {kind : Token.Kind} {first : Cluster} {others following : List Cluster}
    (cases : FirstCase kind first others)
    (no_comment : ∀ mark ∈ commentMarks, ¬mark <+: first :: following) :
    ∃ kind length, measure first following = (.token kind, length) ∧
      IsLongest kind (first :: following.take length) (first :: following) := by
  have of_symbol : ∀ symbol, symbol? first = some symbol →
      ∃ kind length, measure first following = (.token kind, length) ∧
        IsLongest kind (first :: following.take length) (first :: following) := by
    intro symbol found
    obtain ⟨kind, length, read⟩ := exists_measureSymbol symbol following
    refine ⟨kind, length, ?_, isLongest_symbol found read⟩
    by_cases slash : symbol = .slash
    · subst slash
      cases eq_single_of_slash found
      rw [measure_of_slash found, measureSlash_of_no_comment no_comment]
      exact read
    · rw [measure_of_symbol found slash, read]
  cases cases with
  | digit digit => exact ⟨_, _, measure_of_isDigit digit following, isLongest_number digit following⟩
  | letter letter =>
      exact ⟨_, _, measure_of_isLetter letter following, isLongest_word letter following rfl⟩
  | symbol found => exact of_symbol kind found
  | withEqual found => exact of_symbol _ found

theorem fits_token {first : Cluster} {following : List Cluster} {kind : Token.Kind} {length : Nat}
    (isLongest : IsLongest kind (first :: following.take length) (first :: following))
    (no_comment : first ≠ single '/') :
    Fits ⟨.token kind, first :: following.take length⟩ (following.drop length) := by
  apply Fits.token
  · rwa [List.cons_append, List.take_append_drop]
  · intro mark mark_mem opens
    rw [List.cons_append, List.take_append_drop] at opens
    simp only [commentMarks, List.mem_cons, List.not_mem_nil, or_false] at mark_mem
    rcases mark_mem with rfl | rfl <;>
      exact no_comment (List.cons_prefix_cons.mp opens).1.symm

/-- What is measured is a segment of the grammar. -/
theorem fits_of_measure {first : Cluster} {following : List Cluster} {piece : Piece} {length : Nat}
    (read : measure first following = (piece, length)) :
    Fits ⟨piece, first :: following.take length⟩ (following.drop length) := by
  by_cases blank : isBlank first = true
  · rw [measure, if_pos blank] at read
    cases read
    exact .blank (isBlank_iff.mp blank)
  by_cases quote : isChar '"' first = true
  · rw [measure, if_neg blank, if_pos quote] at read
    rw [of_decide_eq_true quote]
    exact fits_string read
  by_cases digit : isDigit first = true
  · cases (measure_of_isDigit digit following).symm.trans read
    apply fits_token (isLongest_number digit following)
    rintro rfl
    cases digit
  by_cases letter : isLetter first = true
  · cases (measure_of_isLetter letter following).symm.trans read
    apply fits_token (isLongest_word letter following rfl)
    rintro rfl
    cases letter
  rw [Bool.not_eq_true] at blank quote digit letter
  cases found : symbol? first with
  | none =>
      simp only [measure, blank, quote, digit, letter, found] at read
      cases read
      apply Fits.unexpected
      · simp [← isBlank_iff, blank]
      · rintro rfl
        cases quote
      · intro kind text forms isPrefix
        obtain ⟨head, others, rfl, cases⟩ := forms.exists_first
        obtain ⟨rfl, -⟩ := List.cons_prefix_cons.mp isPrefix
        cases cases with
        | digit is_digit => exact absurd is_digit (by simp [digit])
        | letter is_letter => exact absurd is_letter (by simp [letter])
        | symbol is_symbol | withEqual is_symbol => cases found.symm.trans is_symbol
  | some symbol =>
      by_cases slash : symbol = .slash
      · subst slash
        rw [measure_of_slash found] at read
        rw [eq_single_of_slash found]
        exact fits_slash read
      · rw [measure_of_symbol found slash] at read
        obtain ⟨kind, length, is_token⟩ := exists_measureSymbol symbol following
        cases is_token.symm.trans read
        apply fits_token (isLongest_symbol found read)
        rintro rfl
        exact slash (Option.some.inj (found.symm.trans (by decide)))

theorem measure_of_unexpected {cluster : Cluster} {after : List Cluster}
    (no_blank : cluster ∉ blanks) (no_quote : cluster ≠ single '"')
    (no_token : ∀ kind text, Forms kind text → ¬text <+: cluster :: after) :
    measure cluster after = (.unexpected, 0) := by
  have starts : ∀ kind, ¬Forms kind [cluster] := fun kind forms =>
    no_token kind [cluster] forms (List.prefix_append [cluster] after)
  have no_digit : isDigit cluster = false := by
    rw [Bool.eq_false_iff]
    intro digit
    exact starts .number (.integer ⟨by simp, by simpa using digit⟩)
  have no_letter : isLetter cluster = false := by
    rw [Bool.eq_false_iff]
    intro letter
    exact starts _ (.word letter (by simp))
  have no_symbol : symbol? cluster = none := by
    rw [Option.eq_none_iff_forall_ne_some]
    intro symbol found
    exact starts symbol (forms_symbol found)
  rw [← isBlank_iff, Bool.not_eq_true] at no_blank
  have no_quote : isChar '"' cluster = false := decide_eq_false no_quote
  simp [measure, no_blank, no_quote, no_digit, no_letter, no_symbol]

/-- A segment of the grammar is what is measured at its place. -/
theorem measure_of_fits {segment : Segment} {after : List Cluster} (fits : segment.Fits after) :
    ∃ first others, segment.text = first :: others ∧
      measure first (others ++ after) = (segment.piece, others.length) := by
  have quoted : ∀ following, measure (single '"') following = measureString following :=
    fun _ => rfl
  have slashed : ∀ following, measure (single '/') following = measureSlash following :=
    measure_of_slash (by decide)
  cases fits with
  | @token kind text after isLongest no_comment =>
      obtain ⟨first, others, rfl, cases⟩ := isLongest.forms.exists_first
      have no_comment : ∀ mark ∈ commentMarks, ¬mark <+: first :: (others ++ after) := no_comment
      obtain ⟨other, length, read, also⟩ := exists_isLongest cases no_comment
      obtain ⟨rfl, text_eq⟩ := isLongest.unique also
      refine ⟨first, others, rfl, ?_⟩
      have length_eq := congrArg List.length (List.cons.inj text_eq).2
      rw [List.length_take_of_le (length_le_of_measure read)] at length_eq
      rw [read, length_eq]
  | @string body after no_quote =>
      exact ⟨_, _, rfl, (quoted _).trans (measureString_of_closed no_quote after)⟩
  | @openString body no_quote =>
      refine ⟨_, _, rfl, ?_⟩
      rw [List.append_nil, quoted]
      exact measureString_of_open no_quote
  | @blank cluster after isBlank =>
      exact ⟨cluster, [], rfl, by rw [measure, if_pos (isBlank_iff.mpr isBlank)]; rfl⟩
  | @lineComment body after one_line stopped =>
      exact ⟨_, _, rfl, (slashed _).trans (measureSlash_of_lineComment one_line stopped)⟩
  | @blockComment body after first_closing =>
      exact ⟨_, _, rfl, (slashed _).trans (measureSlash_of_closed first_closing after)⟩
  | @openComment body no_closing =>
      refine ⟨_, _, rfl, ?_⟩
      rw [List.append_nil, slashed]
      exact measureSlash_of_open no_closing
  | @unexpected cluster after no_blank no_quote no_token =>
      exact ⟨cluster, [], rfl, measure_of_unexpected no_blank no_quote no_token⟩

/-- Segments make up a text in one way only, the one in which it is scanned. -/
theorem divides_iff {segments : List Segment} {clusters : List Cluster} :
    Divides segments clusters ↔ segments = ofClusters clusters := by
  constructor
  · intro divides
    induction divides with
    | nil => simp [ofClusters]
    | @cons segment segments after fits _ ih =>
        rcases segment with ⟨piece, text⟩
        obtain ⟨first, others, rfl, read⟩ := measure_of_fits fits
        rw [ih]
        exact (ofClusters_of_measure read).symm
  · rintro rfl
    fun_induction ofClusters clusters with
    | case1 => exact .nil
    | case2 first following piece length read ih =>
        have divides := Divides.cons (fits_of_measure read) ih
        rwa [List.cons_append, List.take_append_drop] at divides

end Segment

end Scriptlet
