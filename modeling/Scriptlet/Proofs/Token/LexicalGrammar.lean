import Scriptlet.Proofs.Token.Scanned

/-!
# The lexical grammar

What the segments of a source are, apart from how they are found. `Forms` says which texts are
tokens, `Fits` what a segment is at its place in a source, and `Divides` that segments make up a
source from left to right. A cluster of several characters is none of the characters that it is made
of, so all of this is about clusters.
-/

namespace Scriptlet.Segment

open Text (Cluster)
open Text.Cluster (single)

/-- Digits, of which there is at least one. -/
def IsDigits (text : List Cluster) : Prop :=
  text ≠ [] ∧ ∀ digit ∈ text, isDigit digit = true

/-- The texts that are tokens, except for strings. -/
inductive Forms : Token.Kind → List Cluster → Prop where
  | integer {digits : List Cluster} (isDigits : IsDigits digits) : Forms .number digits
  | fraction {digits places : List Cluster} (isDigits : IsDigits digits)
      (arePlaces : IsDigits places) : Forms .number (digits ++ single '.' :: places)
  | word {first : Cluster} {others : List Cluster} (letter : isLetter first = true)
      (parts : ∀ part ∈ others, isWordPart part = true) :
      Forms ((Token.Kind.keyword? (Cluster.text (first :: others))).getD .identifier)
        (first :: others)
  | operator {kind : Token.Kind} {spelling : String} (kind_mem : kind ∈ Token.Kind.symbols)
      (spelled : kind.spelling? = some spelling) : Forms kind (spelling.toList.map single)

/-- A text at the start of a source is a token, and no longer one is. -/
structure IsLongest (kind : Token.Kind) (text source : List Cluster) : Prop where
  forms : Forms kind text
  isPrefix : text <+: source
  longest : ∀ other longer, Forms other longer → longer <+: source → longer.length ≤ text.length

/-- The clusters that end a line. -/
def lineEnds : List Cluster :=
  [single '\n', ⟨'\r', ['\n']⟩]

/-- The clusters that are layout between tokens. -/
def blanks : List Cluster :=
  lineEnds ++ [single ' ', single '\r', single '\t']

/-- The marks that open a comment. -/
def commentMarks : List (List Cluster) :=
  [[single '/', single '/'], [single '/', single '*']]

/-- The mark that closes a block comment. -/
def closingMark : List Cluster :=
  [single '*', single '/']

/-- What a segment is in front of the text after it. -/
inductive Fits : Segment → List Cluster → Prop where
  | token {kind : Token.Kind} {text after : List Cluster}
      (isLongest : IsLongest kind text (text ++ after))
      (no_comment : ∀ mark ∈ commentMarks, ¬mark <+: text ++ after) :
      Fits ⟨.token kind, text⟩ after
  | string {body after : List Cluster} (no_quote : single '"' ∉ body) :
      Fits ⟨.token .string, single '"' :: (body ++ [single '"'])⟩ after
  | blank {cluster : Cluster} {after : List Cluster} (isBlank : cluster ∈ blanks) :
      Fits ⟨.blank, [cluster]⟩ after
  | lineComment {body after : List Cluster} (one_line : ∀ cluster ∈ body, cluster ∉ lineEnds)
      (stopped : ∀ next ∈ after.head?, next ∈ lineEnds) :
      Fits ⟨.lineComment, single '/' :: single '/' :: body⟩ after
  | blockComment {body after : List Cluster}
      (first_closing : ¬closingMark <:+: body ++ [single '*']) :
      Fits ⟨.blockComment, single '/' :: single '*' :: (body ++ closingMark)⟩ after
  | unexpected {cluster : Cluster} {after : List Cluster} (no_blank : cluster ∉ blanks)
      (no_quote : cluster ≠ single '"')
      (no_token : ∀ kind text, Forms kind text → ¬text <+: cluster :: after) :
      Fits ⟨.unexpected, [cluster]⟩ after
  | openString {body : List Cluster} (no_quote : single '"' ∉ body) :
      Fits ⟨.openString, single '"' :: body⟩ []
  | openComment {body : List Cluster} (no_closing : ¬closingMark <:+: body) :
      Fits ⟨.openComment, single '/' :: single '*' :: body⟩ []

/-- Segments make up a text, each in front of the rest of it. -/
inductive Divides : List Segment → List Cluster → Prop where
  | nil : Divides [] []
  | cons {segment : Segment} {segments : List Segment} {after : List Cluster}
      (fits : segment.Fits after) (divides : Divides segments after) :
      Divides (segment :: segments) (segment.text ++ after)

theorem isNewline_iff {cluster : Cluster} : isNewline cluster = true ↔ cluster ∈ lineEnds := by
  simp [isNewline, isChar, lineEnds]

theorem isBlank_iff {cluster : Cluster} : isBlank cluster = true ↔ cluster ∈ blanks := by
  simp [isBlank, isNewline, isChar, blanks, lineEnds, or_assoc]

theorem isDigit_eq_false_of_isAlpha {char : Char} (alpha : char.isAlpha = true) :
    char.isDigit = false := by
  delta Char.isAlpha Char.isUpper Char.isLower at alpha
  delta Char.isDigit
  simp only [Bool.or_eq_true, Bool.and_eq_true, decide_eq_true_eq, UInt32.le_iff_toNat_le,
    ge_iff_le] at alpha
  simp only [Bool.and_eq_false_iff, decide_eq_false_iff_not, UInt32.le_iff_toNat_le, ge_iff_le]
  have upper_first : 'A'.val.toNat = 65 := rfl
  have lower_first : 'a'.val.toNat = 97 := rfl
  have digit_last : '9'.val.toNat = 57 := rfl
  omega

/-- Letters are none of the clusters that are looked for before them. -/
theorem classes_of_letter {first : Cluster} (letter : isLetter first = true) :
    isBlank first = false ∧ isChar '"' first = false ∧ isDigit first = false := by
  rcases first with ⟨char, rest⟩
  simp only [isLetter, Bool.and_eq_true, Bool.or_eq_true, decide_eq_true_eq] at letter
  obtain ⟨rfl, letter⟩ := letter
  have other_char : ∀ other : Char, other.isAlpha = false → other ≠ '_' → char ≠ other := by
    rintro other no_alpha no_underscore rfl
    rcases letter with alpha | underscore
    · exact absurd alpha (by simp [no_alpha])
    · exact no_underscore underscore
  have no_digit : char.isDigit = false := by
    rcases letter with alpha | rfl
    · exact isDigit_eq_false_of_isAlpha alpha
    · rfl
  refine ⟨?_, ?_, ?_⟩
  · simp [isBlank, isNewline, isChar, Text.Cluster.single, other_char]
  · simp [isChar, Text.Cluster.single, other_char]
  · simp [isDigit, no_digit]

/-- Symbols are none of the other clusters that a segment starts with. -/
theorem classes_of_symbol {first : Cluster} {symbol : Token.Kind}
    (found : symbol? first = some symbol) :
    isBlank first = false ∧ isChar '"' first = false ∧ isDigit first = false ∧
      isLetter first = false := by
  rcases first with ⟨char, rest⟩
  obtain ⟨rfl, spelled⟩ := spelling_of_symbol found
  have chars_eq : symbol.spelling?.map String.toList = some [char] := by
    rw [spelled]
    simp
  cases symbol <;> simp [Token.Kind.spelling?] at chars_eq <;> subst chars_eq <;> decide

section

variable {first : Cluster} {symbol : Token.Kind}

theorem not_isDigit_of_isLetter (letter : isLetter first = true) : ¬isDigit first = true := by
  simp [(classes_of_letter letter).2.2]

theorem not_isDigit_of_symbol (found : symbol? first = some symbol) : ¬isDigit first = true := by
  simp [(classes_of_symbol found).2.2.1]

theorem not_isLetter_of_symbol (found : symbol? first = some symbol) : ¬isLetter first = true := by
  simp [(classes_of_symbol found).2.2.2]

end

/-- An operator is a symbol, or a symbol with an equality sign after it. -/
theorem operator_cases {kind : Token.Kind} {spelling : String}
    (kind_mem : kind ∈ Token.Kind.symbols) (spelled : kind.spelling? = some spelling) :
    ∃ first symbol, symbol? first = some symbol ∧
      (kind = symbol ∧ spelling.toList.map single = [first] ∨
        withEqual? symbol = some kind ∧
          spelling.toList.map single = [first, single '=']) := by
  have table : ∀ kind ∈ Token.Kind.symbols, ∀ spelling ∈ kind.spelling?,
      ∃ first ∈ (spelling.toList.map single).head?, ∃ symbol ∈ symbol? first,
        kind = symbol ∧ spelling.toList.map single = [first] ∨
          withEqual? symbol = some kind ∧
            spelling.toList.map single = [first, single '='] := by
    decide
  obtain ⟨first, -, symbol, found, shape⟩ := table kind kind_mem spelling spelled
  exact ⟨first, symbol, found, shape⟩

/-- What follows the first digit of a number. -/
def EndsNumber (others : List Cluster) : Prop :=
  (∀ digit ∈ others, isDigit digit = true) ∨
    ∃ digits places, others = digits ++ single '.' :: places ∧
      (∀ digit ∈ digits, isDigit digit = true) ∧ IsDigits places

/-- What a token is that starts with some cluster. -/
inductive FirstCase (kind : Token.Kind) (first : Cluster) (others : List Cluster) : Prop where
  | digit (digit : isDigit first = true) (kind_eq : kind = .number) (ends : EndsNumber others)
  | letter (letter : isLetter first = true) (parts : ∀ part ∈ others, isWordPart part = true)
      (kind_eq : kind = (Token.Kind.keyword? (Cluster.text (first :: others))).getD .identifier)
  | symbol (found : symbol? first = some kind) (others_eq : others = [])
  | withEqual {symbol : Token.Kind} (found : symbol? first = some symbol)
      (extended : withEqual? symbol = some kind) (others_eq : others = [single '='])

/-- The first cluster of a token decides what can follow it. -/
theorem Forms.exists_first {kind : Token.Kind} {text : List Cluster} (forms : Forms kind text) :
    ∃ first others, text = first :: others ∧ FirstCase kind first others := by
  cases forms with
  | @integer digits isDigits =>
      obtain ⟨some_digit, all⟩ := isDigits
      obtain ⟨first, others, rfl⟩ := List.exists_cons_of_ne_nil some_digit
      rw [List.forall_mem_cons] at all
      exact ⟨first, others, rfl, .digit all.1 rfl (.inl all.2)⟩
  | @fraction digits places isDigits arePlaces =>
      obtain ⟨some_digit, all⟩ := isDigits
      obtain ⟨first, others, rfl⟩ := List.exists_cons_of_ne_nil some_digit
      rw [List.forall_mem_cons] at all
      exact ⟨first, _, rfl, .digit all.1 rfl (.inr ⟨others, places, rfl, all.2, arePlaces⟩)⟩
  | @word first others letter parts => exact ⟨first, others, rfl, .letter letter parts rfl⟩
  | operator kind_mem spelled =>
      obtain ⟨first, symbol, found, ⟨rfl, text_eq⟩ | ⟨extended, text_eq⟩⟩ :=
        operator_cases kind_mem spelled
      · exact ⟨first, [], text_eq, .symbol found rfl⟩
      · exact ⟨first, _, text_eq, .withEqual found extended rfl⟩

theorem Forms.firstCase {kind : Token.Kind} {first : Cluster} {others : List Cluster}
    (forms : Forms kind (first :: others)) : FirstCase kind first others := by
  obtain ⟨head, tail, text_eq, cases⟩ := forms.exists_first
  obtain ⟨rfl, rfl⟩ := List.cons.inj text_eq
  exact cases

/-- The kind that a text has if it is a token. -/
def kindOf? (first : Cluster) (others : List Cluster) : Option Token.Kind :=
  if isDigit first then some .number
  else if isLetter first then
    some ((Token.Kind.keyword? (Cluster.text (first :: others))).getD .identifier)
  else if others = [] then symbol? first
  else (symbol? first).bind withEqual?

theorem FirstCase.kindOf?_eq {kind : Token.Kind} {first : Cluster} {others : List Cluster}
    (cases : FirstCase kind first others) : kindOf? first others = some kind := by
  cases cases with
  | digit digit kind_eq => rw [kindOf?, if_pos digit, kind_eq]
  | letter letter _ kind_eq =>
      rw [kindOf?, if_neg (not_isDigit_of_isLetter letter), if_pos letter, kind_eq]
  | symbol found others_eq =>
      rw [kindOf?, if_neg (not_isDigit_of_symbol found), if_neg (not_isLetter_of_symbol found),
        if_pos others_eq, found]
  | withEqual found extended others_eq =>
      rw [kindOf?, if_neg (not_isDigit_of_symbol found), if_neg (not_isLetter_of_symbol found),
        if_neg (by simp [others_eq]), found, Option.bind_some, extended]

/-- A text is a token of one kind only. -/
theorem Forms.kind_unique {kind other : Token.Kind} {text : List Cluster}
    (forms : Forms kind text) (also : Forms other text) : kind = other := by
  obtain ⟨first, others, rfl, cases⟩ := forms.exists_first
  exact Option.some.inj (cases.kindOf?_eq.symm.trans also.firstCase.kindOf?_eq)

/-- At most one token is the longest. -/
theorem IsLongest.unique {kind other : Token.Kind} {text otherText source : List Cluster}
    (isLongest : IsLongest kind text source) (also : IsLongest other otherText source) :
    kind = other ∧ text = otherText := by
  have length_eq : text.length = otherText.length :=
    Nat.le_antisymm (also.longest kind text isLongest.forms isLongest.isPrefix)
      (isLongest.longest other otherText also.forms also.isPrefix)
  have text_eq : text = otherText := by
    rw [List.prefix_iff_eq_take.mp isLongest.isPrefix, length_eq,
      ← List.prefix_iff_eq_take.mp also.isPrefix]
  exact ⟨isLongest.forms.kind_unique (text_eq ▸ also.forms), text_eq⟩

end Scriptlet.Segment
