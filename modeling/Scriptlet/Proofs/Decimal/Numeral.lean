import Mathlib.Data.List.TakeWhile
import Scriptlet.Number
import Scriptlet.Proofs.Decimal.Bits
import Scriptlet.Proofs.Decimal.Rounding

/-!
# Numerals read back

The numeral of a decimal number is made of digits, and of digits after a point when it has decimal
places. Reading it gives a number that is rounded like the one that was written, so the text of a
finite double without a sign is read as this double.
-/

namespace Scriptlet

namespace Number

/-- Whether a text is a numeral: digits, and perhaps a point with digits after it. -/
def isNumeral (digits : List Char) : Bool :=
  let fraction := digits.dropWhile Char.isDigit
  digits.head?.any Char.isDigit &&
    (fraction = [] || (fraction.head? = some '.' && 1 < fraction.length
      && (fraction.drop 1).all Char.isDigit))

theorem isNumeral_of_digits {digits : List Char} (nonempty : digits ≠ [])
    (all_digits : ∀ digit ∈ digits, digit.isDigit) : isNumeral digits := by
  cases digits with
  | nil => exact absurd rfl nonempty
  | cons first others =>
      have none_left : (first :: others).dropWhile Char.isDigit = [] :=
        List.dropWhile_eq_nil_iff.mpr all_digits
      simp [isNumeral, none_left, all_digits first List.mem_cons_self]

theorem isNumeral_of_point {digits places : List Char} (nonempty : digits ≠ [])
    (all_digits : ∀ digit ∈ digits, digit.isDigit) (some_place : places ≠ [])
    (all_places : ∀ digit ∈ places, digit.isDigit) : isNumeral (digits ++ '.' :: places) := by
  cases digits with
  | nil => exact absurd rfl nonempty
  | cons first others =>
      have left_eq : (first :: others ++ '.' :: places).dropWhile Char.isDigit = '.' :: places := by
        rw [List.dropWhile_append_of_pos all_digits]
        rfl
      have length_pos := List.length_pos_iff.mpr some_place
      have first_digit := all_digits first List.mem_cons_self
      have places_all : places.all Char.isDigit = true := List.all_eq_true.mpr all_places
      simp only [isNumeral, left_eq]
      simp [first_digit, places_all, length_pos]

/-- A numeral is a digit and more digits, and perhaps a point with digits. -/
theorem exists_of_isNumeral {chars : List Char} (numeral : isNumeral chars = true) :
    ∃ first digits fraction, chars = first :: (digits ++ fraction) ∧ first.isDigit = true ∧
      (∀ digit ∈ digits, digit.isDigit = true) ∧
      (fraction = [] ∨ ∃ places, fraction = '.' :: places ∧ places ≠ [] ∧
        ∀ digit ∈ places, digit.isDigit = true) := by
  cases chars with
  | nil => cases numeral
  | cons first others =>
      simp only [isNumeral, List.head?_cons, Option.any_some, Bool.and_eq_true, Bool.or_eq_true,
        decide_eq_true_eq, List.all_eq_true] at numeral
      rcases numeral with ⟨first_digit, fraction_shape⟩
      rw [List.dropWhile_cons_of_pos first_digit] at fraction_shape
      refine ⟨first, others.takeWhile Char.isDigit, others.dropWhile Char.isDigit,
        by rw [List.takeWhile_append_dropWhile], first_digit, ?_, ?_⟩
      · exact List.all_eq_true.mp List.all_takeWhile
      · rcases fraction_shape with none_left | ⟨⟨point, some_place⟩, all_places⟩
        · exact .inl none_left
        · refine .inr ?_
          cases left_eq : others.dropWhile Char.isDigit with
          | nil =>
              rw [left_eq] at point
              cases point
          | cons head places =>
              rw [left_eq] at point some_place all_places
              cases point
              refine ⟨places, rfl, ?_, all_places⟩
              rintro rfl
              exact absurd some_place (by decide)

end Number

namespace Decimal

/-- The digits of the coefficient, with zeros in front where there are fewer than places. -/
def padded (coefficient places : Nat) : List Char :=
  List.replicate (places + 1 - (Nat.toDigits 10 coefficient).length) '0'
    ++ Nat.toDigits 10 coefficient

theorem isDigit_of_mem_padded {coefficient places : Nat} :
    ∀ digit ∈ padded coefficient places, digit.isDigit := by
  intro digit digit_mem
  rcases List.mem_append.mp digit_mem with zero_mem | digit_mem
  · rw [List.eq_of_mem_replicate zero_mem]
    rfl
  · exact Nat.isDigit_of_mem_toDigits (by decide) (by decide) digit_mem

theorem length_padded (coefficient places : Nat) :
    places < (padded coefficient places).length := by
  simp only [padded, List.length_append, List.length_replicate]
  omega

theorem ofDigitChars_padded (coefficient places : Nat) :
    Nat.ofDigitChars 10 (padded coefficient places) 0 = coefficient := by
  rw [padded, Nat.ofDigitChars_append, Nat.ofDigitChars_replicate_zero, Nat.mul_zero,
    Nat.ofDigitChars_ten_toDigits]

theorem isDigit_of_mem_zeros {coefficient zeros : Nat} :
    ∀ digit ∈ Nat.toDigits 10 coefficient ++ List.replicate zeros '0', digit.isDigit := by
  intro digit digit_mem
  rcases List.mem_append.mp digit_mem with digit_mem | zero_mem
  · exact Nat.isDigit_of_mem_toDigits (by decide) (by decide) digit_mem
  · rw [List.eq_of_mem_replicate zero_mem]
    rfl

theorem numeral_of_nonneg {decimal : Decimal} (whole : 0 ≤ decimal.exponent) :
    decimal.numeral = Nat.toDigits 10 decimal.coefficient
      ++ List.replicate decimal.exponent.toNat '0' := by
  simp only [numeral, if_pos whole]

theorem numeral_of_neg {decimal : Decimal} (fractional : ¬ 0 ≤ decimal.exponent) :
    ∃ whole fraction : List Char, decimal.numeral = whole ++ '.' :: fraction ∧
      whole ++ fraction = padded decimal.coefficient (-decimal.exponent).toNat ∧
      whole ≠ [] ∧ fraction.length = (-decimal.exponent).toNat := by
  have length_lt := length_padded decimal.coefficient (-decimal.exponent).toNat
  refine ⟨_, _, by simp only [numeral, if_neg fractional]; rfl, List.take_append_drop _ _, ?_, ?_⟩
  · rw [← List.length_pos_iff, List.length_take]
    change 0 < min ((padded decimal.coefficient (-decimal.exponent).toNat).length
      - (-decimal.exponent).toNat) (padded decimal.coefficient (-decimal.exponent).toNat).length
    omega
  · rw [List.length_drop]
    change (padded decimal.coefficient (-decimal.exponent).toNat).length
      - ((padded decimal.coefficient (-decimal.exponent).toNat).length
        - (-decimal.exponent).toNat) = _
    omega

/-- The text of a decimal number is a numeral. -/
theorem isNumeral_numeral (decimal : Decimal) : Number.isNumeral decimal.numeral := by
  by_cases whole : 0 ≤ decimal.exponent
  · rw [numeral_of_nonneg whole]
    exact Number.isNumeral_of_digits
      (List.append_ne_nil_of_left_ne_nil Nat.toDigits_ne_nil _) isDigit_of_mem_zeros
  · rcases numeral_of_neg whole with ⟨digits, places, numeral_eq, padded_eq, nonempty, length_eq⟩
    have all_digits : ∀ digit ∈ digits ++ places, digit.isDigit := by
      rw [padded_eq]
      exact isDigit_of_mem_padded
    rw [numeral_eq]
    refine Number.isNumeral_of_point nonempty ?_ ?_ ?_
    · exact fun digit digit_mem => all_digits digit (List.mem_append_left _ digit_mem)
    · rw [← List.length_pos_iff, length_eq]
      omega
    · exact fun digit digit_mem => all_digits digit (List.mem_append_right _ digit_mem)

theorem ne_point_of_isDigit {digits : List Char} (all_digits : ∀ digit ∈ digits, digit.isDigit) :
    ∀ digit ∈ digits, decide (digit ≠ '.') = true := by
  intro digit digit_mem
  apply decide_eq_true
  rintro rfl
  exact absurd (all_digits '.' digit_mem) (by decide)

/-- Without a point all digits stand for the coefficient. -/
theorem ofNumeral_of_digits {digits : List Char} (all_digits : ∀ digit ∈ digits, digit.isDigit) :
    ofNumeral digits = ⟨Nat.ofDigitChars 10 digits 0, 0⟩ := by
  have no_point := ne_point_of_isDigit all_digits
  have whole_eq := List.takeWhile_eq_self_iff.mpr no_point
  have fraction_eq := List.dropWhile_eq_nil_iff.mpr no_point
  simp only [ofNumeral, whole_eq, fraction_eq, List.drop_nil, List.append_nil]
  rfl

/-- The digits after a point are the decimal places. -/
theorem ofNumeral_of_point {digits : List Char} (all_digits : ∀ digit ∈ digits, digit.isDigit)
    (places : List Char) :
    ofNumeral (digits ++ '.' :: places)
      = ⟨Nat.ofDigitChars 10 (digits ++ places) 0, -places.length⟩ := by
  have no_point := ne_point_of_isDigit all_digits
  have none_after : ('.' :: places).takeWhile (fun char => decide (char ≠ '.')) = [] := by simp
  have all_after : ('.' :: places).dropWhile (fun char => decide (char ≠ '.')) = '.' :: places := by
    simp
  simp only [ofNumeral, List.takeWhile_append_of_pos no_point,
    List.dropWhile_append_of_pos no_point, none_after, all_after, List.append_nil,
    List.drop_succ_cons, List.drop_zero]

/-- Zeros at the end of the digits stand for a positive exponent. -/
theorem nearest_of_zeros {decimal : Decimal} (whole : 0 ≤ decimal.exponent) :
    nearest ⟨decimal.coefficient * Nat.pow 10 decimal.exponent.toNat, 0⟩ = decimal.nearest := by
  have places_eq : (-decimal.exponent).toNat = 0 := by omega
  apply nearest_eq_of_scaled Nat.zero_lt_one
  · rfl
  · simp only [ratio, places_eq]
    rfl

/-- A numeral is read as a number that is rounded like the one that was written. -/
theorem nearest_ofNumeral_numeral (decimal : Decimal) :
    (ofNumeral decimal.numeral).nearest = decimal.nearest := by
  by_cases whole : 0 ≤ decimal.exponent
  · have all_digits : ∀ digit ∈ decimal.numeral, digit.isDigit := by
      rw [numeral_of_nonneg whole]
      exact isDigit_of_mem_zeros
    have value_eq : Nat.ofDigitChars 10 decimal.numeral 0
        = decimal.coefficient * Nat.pow 10 decimal.exponent.toNat := by
      rw [numeral_of_nonneg whole, Nat.ofDigitChars_append, Nat.ofDigitChars_ten_toDigits,
        Nat.ofDigitChars_replicate_zero, Nat.mul_comm]
      rfl
    rw [ofNumeral_of_digits all_digits, value_eq, nearest_of_zeros whole]
  · rcases numeral_of_neg whole with ⟨digits, places, numeral_eq, padded_eq, -, length_eq⟩
    have all_digits : ∀ digit ∈ digits, digit.isDigit := fun digit digit_mem =>
      isDigit_of_mem_padded digit (padded_eq ▸ List.mem_append_left places digit_mem)
    have exponent_eq : -((-decimal.exponent).toNat : Int) = decimal.exponent := by omega
    rw [numeral_eq, ofNumeral_of_point all_digits, padded_eq, ofDigitChars_padded, length_eq,
      exponent_eq]

/-- The text of a finite magnitude is read as the double that has it. -/
theorem toFloat_ofNumeral_shortest {magnitude : Nat} (finite : magnitude < Binary64.infinity) :
    (ofNumeral (shortest magnitude).numeral).toFloat = Binary64.ofMagnitude magnitude := by
  rw [toFloat, nearest_ofNumeral_numeral, nearest_shortest finite]

end Decimal

namespace Number

/-- The text of a finite double without a sign is the shortest numeral of its magnitude. -/
theorem text_ofMagnitude {magnitude : Nat} (finite : magnitude < Binary64.infinity) :
    text (Binary64.ofMagnitude magnitude) = String.ofList (Decimal.shortest magnitude).numeral := by
  simp only [text, Binary64.magnitude_ofMagnitude finite, Binary64.not_isSigned_ofMagnitude finite,
    magnitudeText]
  rw [if_neg (Nat.lt_asymm finite), if_neg Bool.false_ne_true, if_neg (Nat.ne_of_lt finite)]

end Number

end Scriptlet
