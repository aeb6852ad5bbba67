import Mathlib.Data.Nat.Prime.Basic
import Scriptlet.Decimal.Shortest

/-!
# Rounding and the shortest decimal number

Rounding depends on the quotient only and leaves every finite magnitude as it is. The exact value
of a magnitude is therefore read as this magnitude, and so is the decimal number that
`Decimal.shortest` chooses.
-/

namespace Scriptlet

namespace Binary64

theorem roundDiv_mul_right {scale : Nat} (positive : 0 < scale) (numerator denominator : Nat) :
    roundDiv (numerator * scale) (denominator * scale) = roundDiv numerator denominator := by
  have remainder_eq : 2 * (numerator % denominator * scale)
      = 2 * (numerator % denominator) * scale := by
    rw [Nat.mul_assoc]
  simp only [roundDiv, Nat.mul_div_mul_right _ _ positive, Nat.mul_mod_mul_right, remainder_eq,
    Nat.mul_lt_mul_right positive, Nat.mul_left_inj (Nat.ne_of_gt positive)]

/-- A quotient written with other numbers is rounded to the same magnitude. -/
theorem ofRatio_mul_right {scale : Nat} (positive : 0 < scale) (numerator denominator : Nat) :
    ofRatio (numerator * scale) (denominator * scale) = ofRatio numerator denominator := by
  simp only [ofRatio, Nat.mul_div_mul_right _ _ positive, Nat.mul_right_comm denominator scale,
    roundDiv_mul_right positive]

/-- A whole multiple of the denominator is not rounded. -/
theorem roundDiv_of_multiple {denominator : Nat} (positive : 0 < denominator) (quotient : Nat) :
    roundDiv (quotient * denominator) denominator = quotient := by
  have inexact : ¬ (denominator < 2 * 0 ∨ 2 * 0 = denominator ∧ quotient % 2 = 1) := by omega
  simp only [roundDiv, Nat.mul_div_cancel _ positive, Nat.mul_mod_left, if_neg inexact]

theorem pow_two_pos (shift : Nat) : 0 < Nat.pow 2 shift :=
  Nat.two_pow_pos shift

theorem log2_mul_two_pow {mantissa : Nat} (positive : 0 < mantissa) (shift : Nat) :
    (mantissa * Nat.pow 2 shift).log2 = mantissa.log2 + shift := by
  induction shift with
  | zero => exact congrArg Nat.log2 (Nat.mul_one mantissa)
  | succ shift ih =>
      have doubled : mantissa * Nat.pow 2 (shift + 1) = 2 * (mantissa * Nat.pow 2 shift) := by
        change mantissa * (Nat.pow 2 shift * 2) = _
        rw [Nat.mul_comm 2, Nat.mul_assoc]
      have product_pos := Nat.mul_pos positive (pow_two_pos shift)
      rw [doubled, Nat.log2_two_mul (Nat.ne_of_gt product_pos), ih, Nat.add_assoc]

theorem log2_of_normal {fraction : Nat} (fraction_lt : fraction < binade) :
    (binade + fraction).log2 = 52 := by
  have binade_eq : binade = 2 ^ 52 := rfl
  rw [Nat.log2_eq_iff (by omega)]
  omega

theorem log2_of_subnormal {magnitude : Nat} (subnormal : magnitude < binade) :
    magnitude.log2 - 52 = 0 := by
  rcases Nat.eq_zero_or_pos magnitude with rfl | positive
  · rfl
  · have short := (Nat.log2_lt (Nat.ne_of_gt positive)).mpr subnormal
    omega

/-- Rounding leaves a finite magnitude as it is. -/
theorem ofRatio_units {magnitude : Nat} (finite : magnitude < infinity) :
    ofRatio (units magnitude) 1 = magnitude := by
  by_cases subnormal : magnitude < binade
  · have exact_eq := roundDiv_of_multiple Nat.zero_lt_one magnitude
    rw [Nat.mul_one] at exact_eq
    simp only [ofRatio, units, if_pos subnormal, Nat.div_one, log2_of_subnormal subnormal]
    rw [Nat.zero_mul, Nat.zero_add, Nat.one_mul]
    exact exact_eq.symm ▸ Nat.min_eq_right (Nat.le_of_lt finite)
  · have positive : 0 < binade := by decide
    have fraction_lt := Nat.mod_lt magnitude positive
    have exponent_pos : 1 ≤ magnitude / binade := by
      rw [Nat.le_div_iff_mul_le positive]
      omega
    have shift_eq : (units magnitude).log2 - 52 = magnitude / binade - 1 := by
      rw [units, if_neg subnormal, log2_mul_two_pow (by omega), log2_of_normal fraction_lt,
        Nat.add_sub_cancel_left]
    have whole_eq : (magnitude / binade - 1) * binade + (binade + magnitude % binade)
        = magnitude := by
      have split_eq := Nat.div_add_mod' magnitude binade
      have step_eq : (magnitude / binade - 1) * binade + binade = magnitude / binade * binade := by
        rw [← Nat.succ_mul, Nat.succ_eq_add_one, Nat.sub_add_cancel exponent_pos]
      omega
    simp only [ofRatio, Nat.div_one, shift_eq, Nat.one_mul]
    rw [units, if_neg subnormal, roundDiv_of_multiple (pow_two_pos _), whole_eq]
    exact Nat.min_eq_right (Nat.le_of_lt finite)

end Binary64

namespace Decimal

open Binary64 (ofRatio unitsPerOne)

theorem nearest_eq (decimal : Decimal) :
    decimal.nearest = ofRatio (decimal.ratio.1 * unitsPerOne) decimal.ratio.2 :=
  rfl

/-- Two decimal numbers are rounded alike when one is written with a scaled quotient. -/
theorem nearest_eq_of_scaled {decimal other : Decimal} {scale : Nat} (positive : 0 < scale)
    (numerator_eq : decimal.ratio.1 = other.ratio.1 * scale)
    (denominator_eq : decimal.ratio.2 = other.ratio.2 * scale) :
    decimal.nearest = other.nearest := by
  rw [nearest_eq, nearest_eq, numerator_eq, denominator_eq, Nat.mul_right_comm,
    Binary64.ofRatio_mul_right positive]

/-- A zero at the end of the coefficient makes no difference to rounding. -/
theorem nearest_mul_ten (coefficient : Nat) (exponent : Int) :
    nearest ⟨coefficient * 10, exponent⟩ = nearest ⟨coefficient, exponent + 1⟩ := by
  by_cases whole : 0 ≤ exponent
  · apply nearest_eq_of_scaled Nat.zero_lt_one
    · have power_eq : (exponent + 1).toNat = exponent.toNat + 1 := by omega
      simp only [ratio, power_eq, Nat.mul_one]
      exact (Nat.mul_right_comm ..).trans (Nat.mul_assoc ..)
    · have own_eq : (-exponent).toNat = 0 := by omega
      have other_eq : (-(exponent + 1)).toNat = 0 := by omega
      simp only [ratio, own_eq, other_eq, Nat.mul_one]
  · apply nearest_eq_of_scaled (show 0 < 10 by decide)
    · have own_eq : exponent.toNat = 0 := by omega
      have other_eq : (exponent + 1).toNat = 0 := by omega
      simp only [ratio, own_eq, other_eq]
      exact Nat.mul_right_comm ..
    · have power_eq : (-exponent).toNat = (-(exponent + 1)).toNat + 1 := by omega
      simp only [ratio, power_eq]
      rfl

theorem nearest_trimmed (decimal : Decimal) : decimal.trimmed.nearest = decimal.nearest := by
  fun_induction trimmed decimal with
  | case1 decimal trailing ih =>
      have coefficient_eq : decimal.coefficient / 10 * 10 = decimal.coefficient := by omega
      rw [ih, ← nearest_mul_ten, coefficient_eq]
  | case2 => rfl

/-- What the greatest common divisor with a power of two leaves of it is a power of two. -/
theorem gcd_mul_pow_log2 (units : Nat) {whole exponent : Nat} (power : whole = 2 ^ exponent) :
    units.gcd whole * 2 ^ (whole / units.gcd whole).log2 = whole := by
  have divides : units.gcd whole ∣ 2 ^ exponent := power ▸ Nat.gcd_dvd_right units whole
  rcases (Nat.dvd_prime_pow Nat.prime_two).mp divides with ⟨shared, shared_le, common_eq⟩
  have whole_eq : whole = 2 ^ shared * 2 ^ (exponent - shared) := by
    rw [← Nat.pow_add, Nat.add_sub_cancel' shared_le, power]
  have quotient_eq : whole / 2 ^ shared = 2 ^ (exponent - shared) := by
    rw [whole_eq, Nat.mul_div_cancel_left _ (Nat.two_pow_pos shared)]
  rw [common_eq, quotient_eq, Nat.log2_two_pow, ← whole_eq]

/-- A quotient whose denominator is a power of two, written as a decimal number. -/
theorem ratio_of_places (numerator places : Nat) :
    ratio ⟨numerator, -(places : Int)⟩ = (numerator, Nat.pow 10 places) := by
  have whole_eq : (-(places : Int)).toNat = 0 := by omega
  have places_eq : (-(-(places : Int))).toNat = places := by omega
  simp only [ratio, whole_eq, places_eq]
  exact congrArg (·, Nat.pow 10 places) (Nat.mul_one numerator)

theorem unitsPerOne_eq : unitsPerOne = 2 ^ 1074 := by
  delta unitsPerOne
  generalize 1074 = exponent
  rfl

theorem pow_ten_pos (places : Nat) : 0 < Nat.pow 10 places :=
  Nat.pow_pos (by decide)

/-- A quotient by a power of two, with a power of ten as the denominator. -/
theorem scaled_to_ten {units common places whole : Nat} (whole_eq : common * 2 ^ places = whole)
    (divides : common ∣ units) :
    units / common * Nat.pow 5 places * whole = units * Nat.pow 10 places := by
  have ten_eq : Nat.pow 10 places = Nat.pow 5 places * 2 ^ places := Nat.mul_pow 5 2 places
  rw [← whole_eq, ten_eq, Nat.mul_mul_mul_comm, Nat.div_mul_cancel divides]

/-- The exact value of a finite magnitude is read as this magnitude. -/
theorem nearest_ofUnits {magnitude : Nat} (finite : magnitude < Binary64.infinity) :
    (ofUnits (Binary64.units magnitude)).nearest = magnitude := by
  have rounded := Binary64.ofRatio_units finite
  generalize Binary64.units magnitude = units at rounded ⊢
  have numerator_eq := scaled_to_ten (gcd_mul_pow_log2 units unitsPerOne_eq)
    (Nat.gcd_dvd_left units unitsPerOne)
  rw [nearest_eq, ofUnits, ratio_of_places, numerator_eq, ← rounded]
  generalize (unitsPerOne / units.gcd unitsPerOne).log2 = places
  have scaled := Binary64.ofRatio_mul_right (pow_ten_pos places) units 1
  rwa [Nat.one_mul] at scaled

/-- The shortest decimal number is read as the magnitude that it was found for. -/
theorem nearest_shortest {magnitude : Nat} (finite : magnitude < Binary64.infinity) :
    (shortest magnitude).nearest = magnitude := by
  rw [shortest, nearest_trimmed]
  cases found : (List.range' 1 maxDigits).findSome? fun count =>
      (neighbours (ofUnits (Binary64.units magnitude)) count).find? fun candidate =>
        candidate.nearest = magnitude with
  | none => exact nearest_ofUnits finite
  | some candidate =>
      rcases List.exists_of_findSome?_eq_some found with ⟨count, -, candidate_found⟩
      simpa using List.find?_some candidate_found

end Decimal

end Scriptlet
