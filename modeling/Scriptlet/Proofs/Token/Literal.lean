import Scriptlet.Proofs.Decimal.Numeral
import Scriptlet.Proofs.Grammar.WriteBack
import Scriptlet.Proofs.Text.Cut
import Scriptlet.Proofs.Token.Scanned

/-!
# Literals written as text

With a local segmentation, the text of a literal that was scanned is read as one token, which
denotes the same value: the numeral of a finite double is read as this double, and what stands
between the quotes of a string is found again whatever it is.
-/

namespace Scriptlet

open Text (Cluster Segmentation)

/-- Whether a literal is no infinite number. -/
def Literal.isFinite : Literal → Bool
  | .number value => value.isFinite
  | _ => true

namespace Segment

open Text.Cluster

theorem isDigit_single (char : Char) : isDigit (single char) = char.isDigit := by
  simp [isDigit, single]

/-- What stands between the quotes of a string is its value. -/
theorem content_of_quoted (body : List Cluster) :
    ((single '"' :: (body ++ [single '"'])).drop 1).dropLast = body := by
  rw [List.drop_succ_cons, List.drop_zero, List.dropLast_concat]

theorem text_of_quoted (body : List Cluster) :
    Cluster.text (single '"' :: (body ++ [single '"']))
      = (Literal.string (Cluster.text body)).text := by
  apply String.toList_inj.mp
  simp [Cluster.text, Literal.text, Cluster.charsOf, Cluster.chars, Cluster.single]

theorem token_of_quoted (body : List Cluster) :
    Token.ofClusters .string (single '"' :: (body ++ [single '"'])) 0
      = Token.ofLiteral (.string (Cluster.text body)) := by
  rw [Token.ofClusters, Token.literalOf, content_of_quoted, text_of_quoted]
  rfl

/-- Numerals are read to their end. -/
theorem measure_of_isNumeral {first : Char} {others : List Char}
    (numeral : Number.isNumeral (first :: others) = true) :
    measure (single first) (others.map single) = (.token .number, (others.map single).length) := by
  have nothing := lacks_nil (continues .number)
  have all_single : ∀ {chars : List Char}, (∀ char ∈ chars, char.isDigit = true) →
      ∀ cluster ∈ chars.map single, isDigit cluster = true := by
    intro chars all cluster cluster_mem
    rcases List.mem_map.mp cluster_mem with ⟨char, char_mem, rfl⟩
    rw [isDigit_single]
    exact all char char_mem
  rcases Number.exists_of_isNumeral numeral with ⟨_, digits, fraction, chars_eq, digit, all, shape⟩
  rcases List.cons.inj chars_eq with ⟨rfl, rfl⟩
  rw [measure_of_isDigit (by rwa [isDigit_single])]
  rcases shape with rfl | ⟨places, rfl, some_place, all_places⟩
  · have length_eq := numberLength_of_digits (all_single all) nothing
    rw [List.append_nil] at length_eq ⊢
    rw [length_eq]
  · have length_eq := numberLength_of_point (all_single all)
      (show isChar '.' (single '.') = true from rfl) (all_single all_places)
      (by simpa using some_place) nothing
    rw [List.append_nil] at length_eq
    rw [List.map_append, List.map_cons, length_eq, List.length_append, List.length_cons]

end Segment

namespace Writes

open Text.Cluster

variable {segmentation : Segmentation} [segmentation.IsLocal]

/-- A text that is read as one token without a quote writes this token. -/
theorem of_whole {first : Cluster} {others : List Cluster} {kind : Token.Kind}
    (read : Segment.measure first others = (.token kind, others.length))
    (no_string : kind ≠ .string) :
    Writes segmentation (first :: others) [.ofClusters kind (first :: others) 0]
      (Segment.continues kind) := by
  have shape := Segment.token_shape read
  rw [List.take_length] at shape
  have all_alone := (shape.resolve_right fun string => no_string string.1).2
  have bounded : segmentation.Bounded (first :: others) :=
    Segment.bounded_of_isAlone (all_alone first List.mem_cons_self)
      (fun cluster cluster_mem => all_alone cluster (List.mem_cons_of_mem first cluster_mem))
  have writes := of_measure read (by rwa [List.take_length]) 0
  rwa [List.take_length] at writes

/-- The text of a finite magnitude is read as the double that has it. -/
theorem of_magnitude {magnitude : Nat} (finite : magnitude < Binary64.infinity) :
    ∃ text, Cluster.text text = Number.text (Binary64.ofMagnitude magnitude) ∧
      Writes segmentation text [Token.ofLiteral (.number (Binary64.ofMagnitude magnitude))]
        (Segment.continues .number) := by
  have numeral := Decimal.isNumeral_numeral (Decimal.shortest magnitude)
  have value_eq := Decimal.toFloat_ofNumeral_shortest finite
  have text_eq := Number.text_ofMagnitude finite
  cases chars_eq : (Decimal.shortest magnitude).numeral with
  | nil =>
      rw [chars_eq] at numeral
      cases numeral
  | cons first others =>
      rw [chars_eq] at numeral value_eq text_eq
      have chars_back : charsOf (single first :: others.map single) = first :: others :=
        Cluster.charsOf_map_single (first :: others)
      have text_back : Cluster.text (single first :: others.map single)
          = Number.text (Binary64.ofMagnitude magnitude) := by
        rw [Cluster.text, chars_back, text_eq]
      have token_eq : Token.ofClusters .number (single first :: others.map single) 0
          = Token.ofLiteral (.number (Binary64.ofMagnitude magnitude)) := by
        rw [Token.ofClusters, Token.literalOf, text_back, chars_back, value_eq]
        rfl
      have writes : Writes segmentation _ _ _ :=
        of_whole (Segment.measure_of_isNumeral numeral) (by decide)
      rw [token_eq] at writes
      exact ⟨_, text_back, writes⟩

theorem of_nil : ∃ text, Cluster.text text = Literal.nil.text ∧
    Writes segmentation text [Token.ofLiteral .nil] (Segment.continues .nilWord) := by
  have read : Segment.measure (single 'n') (['i', 'l'].map single) = (.token .nilWord, 2) := by
    decide
  exact ⟨_, rfl, of_whole read (by decide)⟩

theorem of_boolean (value : Bool) : ∃ text, Cluster.text text = (Literal.boolean value).text ∧
    Writes segmentation text [Token.ofLiteral (.boolean value)]
      (Segment.continues (Literal.boolean value).kind) := by
  cases value with
  | true =>
      have read : Segment.measure (single 't') (['r', 'u', 'e'].map single)
          = (.token .trueWord, 3) := by
        decide
      exact ⟨_, rfl, of_whole read (by decide)⟩
  | false =>
      have read : Segment.measure (single 'f') (['a', 'l', 's', 'e'].map single)
          = (.token .falseWord, 4) := by
        decide
      exact ⟨_, rfl, of_whole read (by decide)⟩

end Writes

/-- No magnitude is above that of infinity. -/
theorem Decimal.nearest_le (decimal : Decimal) : decimal.nearest ≤ Binary64.infinity :=
  Nat.min_le_left _ _

theorem Decimal.nearest_lt_of_isFinite {decimal : Decimal}
    (finite : decimal.toFloat.isFinite = true) : decimal.nearest < Binary64.infinity := by
  have not_infinite : decimal.nearest ≠ Binary64.infinity := by
    intro same
    rw [toFloat, same] at finite
    exact absurd finite (by decide)
  exact Nat.lt_of_le_of_ne decimal.nearest_le not_infinite

/-- A literal that some scanned token denotes. -/
def Literal.Scanned (segmentation : Segmentation) (value : Literal) : Prop :=
  ∃ token : Token, token.Scanned segmentation ∧ token.literal = some value

section

variable {segmentation : Segmentation} [segmentation.IsLocal]

/-- Scanned tokens that are to denote a value do. -/
theorem Token.Scanned.literal {token : Token} (scanned : token.Scanned segmentation)
    (kind_mem : token.kind ∈ Grammar.literalKinds) :
    (token.literal.getD .nil).Scanned segmentation := by
  refine ⟨token, scanned, ?_⟩
  rcases scanned.exists_measure with ⟨first, following, length, -, token_eq, -⟩
  rw [token_eq, Token.ofClusters]
  generalize token.kind = kind at kind_mem
  revert kind_mem
  cases kind <;> simp [Grammar.literalKinds, Token.literalOf]

/-- A literal that was scanned is written by its text. -/
theorem Token.Scanned.exists_writes_literal {token : Token} (scanned : token.Scanned segmentation)
    {value : Literal} (denotes : token.literal = some value) (finite : value.isFinite = true) :
    ∃ text, Cluster.text text = value.text ∧
      Writes segmentation text [Token.ofLiteral value] (Segment.continues value.kind) := by
  rcases scanned.exists_measure with ⟨first, following, length, read, token_eq, bounded⟩
  rw [token_eq] at denotes
  simp only [Token.ofClusters] at denotes
  generalize token.kind = kind at *
  cases kind with
  | number =>
      cases denotes
      exact Writes.of_magnitude (Decimal.nearest_lt_of_isFinite finite)
  | string =>
      cases denotes
      have ⟨body, text_eq, _⟩ := ((Segment.token_shape read).resolve_left fun other => other.1 rfl).2
      have writes := Writes.of_measure read bounded 0
      rw [text_eq] at writes ⊢
      rw [Segment.content_of_quoted]
      rw [Segment.token_of_quoted] at writes
      exact ⟨_, Segment.text_of_quoted body, writes⟩
  | trueWord =>
      cases denotes
      exact Writes.of_boolean true
  | falseWord =>
      cases denotes
      exact Writes.of_boolean false
  | nilWord =>
      cases denotes
      exact Writes.of_nil
  | _ => cases denotes

/-- The text of a number that is no finite one and stands in a source. -/
theorem Token.Scanned.infinite {token : Token} (scanned : token.Scanned segmentation)
    {value : Literal} (denotes : token.literal = some value) (infinite : value.isFinite = false) :
    token.kind = .number ∧ value.text = Number.infinity := by
  rcases scanned.exists_measure with ⟨first, following, length, -, token_eq, -⟩
  rw [token_eq] at denotes
  simp only [Token.ofClusters] at denotes
  generalize token.kind = kind at *
  cases kind with
  | number =>
      cases denotes
      have magnitude_eq : (Decimal.ofNumeral
          (Cluster.charsOf (first :: following.take length))).nearest = Binary64.infinity := by
        rcases Nat.lt_or_eq_of_le (Decimal.nearest_le _) with finite | same
        · exact absurd (Binary64.isFinite_ofMagnitude finite) (Bool.eq_false_iff.mp infinite)
        · exact same
      refine ⟨rfl, ?_⟩
      rw [Literal.text, Decimal.toFloat, magnitude_eq]
      decide
  | string | trueWord | falseWord | nilWord =>
      cases denotes
      cases infinite
  | _ => cases denotes

/-- A literal of a source has the kind of its token. -/
theorem Token.Scanned.kind_of_literal {token : Token} (scanned : token.Scanned segmentation)
    {value : Literal} (denotes : token.literal = some value) : value.kind = token.kind := by
  rcases scanned.exists_measure with ⟨first, following, length, -, token_eq, -⟩
  rw [token_eq] at denotes
  simp only [Token.ofClusters] at denotes
  generalize token.kind = kind at denotes
  revert denotes
  cases kind <;> simp only [Token.literalOf, Option.some.injEq, reduceCtorEq, false_implies] <;>
    rintro rfl <;> rfl

end

namespace Scan

/-- A numeral is scanned as one number. -/
theorem body_of_isNumeral {segmentation : Segmentation} [segmentation.IsLocal] {first : Char}
    {others : List Char} (numeral : Number.isNumeral (first :: others) = true) :
    ∃ line, (ofString segmentation (String.ofList (first :: others))).tokens.body
      = [⟨.number, String.ofList (first :: others),
          some (.number (Decimal.ofNumeral (first :: others)).toFloat), line⟩] := by
  have writes : Writes segmentation _ _ _ :=
    .of_whole (Segment.measure_of_isNumeral numeral) (by decide)
  have chars_eq : Cluster.charsOf (Cluster.single first :: others.map Cluster.single)
      = first :: others :=
    Cluster.charsOf_map_single (first :: others)
  have same := writes.scan.2
  rw [Token.ofClusters, Token.literalOf, Cluster.text, chars_eq] at same
  rcases List.map_eq_singleton_iff.mp same with ⟨⟨kind, lexeme, literal, line⟩, body_eq, again_eq⟩
  cases again_eq
  exact ⟨line, body_eq⟩

/-- The text of an infinite number is a name. -/
theorem ofString_infinity {segmentation : Segmentation} [segmentation.IsLocal] :
    ofString segmentation Number.infinity
      = ⟨⟨[⟨.identifier, Number.infinity, none, 1⟩], .atEnd 1⟩, []⟩ := by
  rw [ofString_of_plain (Text.isPlain_of_all (by decide +kernel))]
  decide +kernel

/-- With a local segmentation, the text of a finite literal is read back as this literal, while that
of an infinite number is read as a name. -/
theorem literal_read_back {segmentation : Segmentation} [isLocal : segmentation.IsLocal]
    {source : String} {token : Token} {value : Literal}
    (token_mem : token ∈ (ofString segmentation source).tokens.body)
    (denotes : token.literal = some value) :
    (value.isFinite = true → (ofString segmentation value.text).errors = [] ∧
      ∃ line, (ofString segmentation value.text).tokens.body
        = [⟨token.kind, value.text, some value, line⟩]) ∧
    (value.isFinite = false → token.kind = .number ∧
      ofString segmentation value.text
        = ⟨⟨[⟨.identifier, Number.infinity, none, 1⟩], .atEnd 1⟩, []⟩) := by
  have scanned : token.Scanned segmentation := ⟨source, token_mem⟩
  constructor
  · intro finite
    rcases scanned.exists_writes_literal denotes finite with ⟨text, text_eq, writes⟩
    rcases writes.scan with ⟨silent, same⟩
    rw [text_eq] at silent same
    rcases List.map_eq_singleton_iff.mp same with ⟨⟨kind, lexeme, literal, line⟩, body_eq, again_eq⟩
    cases again_eq
    rw [← scanned.kind_of_literal denotes]
    exact ⟨silent, line, body_eq⟩
  · intro infinite
    rcases scanned.infinite denotes infinite with ⟨kind_eq, text_eq⟩
    rw [text_eq]
    exact ⟨kind_eq, ofString_infinity⟩

theorem literal_read_back_fraction :
    (⟨.number, "1.50", some (.number (Decimal.toFloat ⟨15, -1⟩)), 1⟩ : Token)
        ∈ (ofString .graphemes "x = 1.50;").tokens.body ∧
      (ofString .graphemes "1.5").errors = [] ∧
      ∃ line, (ofString .graphemes "1.5").tokens.body
        = [⟨.number, "1.5", some (.number (Decimal.toFloat ⟨15, -1⟩)), line⟩] := by
  have token_mem : (⟨.number, "1.50", some (.number (Decimal.toFloat ⟨15, -1⟩)), 1⟩ : Token)
      ∈ (ofString .graphemes "x = 1.50;").tokens.body := by
    decide +kernel
  have text_eq : Literal.text (.number (Decimal.toFloat ⟨15, -1⟩)) = "1.5" := by decide +kernel
  have read_back := (literal_read_back token_mem rfl).1 (by decide +kernel)
  rw [text_eq] at read_back
  exact ⟨token_mem, read_back⟩

/-- A number too great for a double. -/
def nines : String :=
  String.ofList ('9' :: List.replicate 308 '9')

theorem literal_not_read_back :
    ∃ token ∈ (ofString .graphemes nines).tokens.body, ∃ value, token.literal = some value ∧
      ∃ again, (ofString .graphemes value.text).tokens.body = [again] ∧ again.kind ≠ token.kind ∧
        again.literal ≠ token.literal := by
  have numeral : Number.isNumeral ('9' :: List.replicate 308 '9') = true := by decide
  obtain ⟨line, body_eq⟩ : ∃ line, (ofString .graphemes nines).tokens.body = [⟨_, _, _, line⟩] :=
    body_of_isNumeral numeral
  have infinite : (Literal.number (Decimal.ofNumeral ('9' :: List.replicate 308 '9')).toFloat).text
      = Number.infinity := by
    decide +kernel
  refine ⟨_, body_eq ▸ List.mem_singleton_self _, _, rfl,
    ⟨.identifier, Number.infinity, none, 1⟩, ?_, ?_, ?_⟩
  · rw [infinite, ofString_infinity]
  · exact Token.Kind.noConfusion
  · exact (Option.some_ne_none _).symm

end Scan

end Scriptlet
