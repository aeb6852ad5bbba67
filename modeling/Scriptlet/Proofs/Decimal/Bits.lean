import Mathlib
import Scriptlet.Decimal.Nearest

/-!
# Doubles and their bits

A double is stored as the result of packing a sign, a mantissa and an exponent into 64 bits. Bits
whose exponent field is not full come back from unpacking and packing unchanged, so a magnitude
below infinity is the magnitude of the double that is made from it.
-/

namespace Scriptlet.Binary64

open Float.Model (Format)
open Float.Model.UnpackedFloat

/-- The three fields of some bits, put together, are these bits. -/
theorem packComponents_fields (bits : BitVec Format.binary64.numBits) :
    packComponents Format.binary64 (Sign.ofBitVec (unpackSign bits)) (unpackExponent bits)
      (unpackMantissa bits) = bits := by
  have sign_eq : (Sign.ofBitVec (unpackSign bits)).toBitVec = unpackSign bits := by
    generalize unpackSign bits = bit
    revert bit
    decide
  have small : bits.toNat < 2 ^ 64 := bits.isLt
  rw [packComponents, sign_eq]
  apply BitVec.eq_of_toNat_eq
  simp only [unpackSign, unpackExponent, unpackMantissa, BitVec.toNat_append, BitVec.toNat_cast,
    BitVec.extractLsb_toNat, Nat.shiftRight_eq_div_pow]
  rw [← Nat.shiftLeft_add_eq_or_of_lt (Nat.mod_lt _ (by decide)),
    ← Nat.shiftLeft_add_eq_or_of_lt (Nat.mod_lt _ (by decide))]
  simp only [Nat.shiftLeft_eq, Nat.reduceAdd, Nat.reduceSub, Nat.reducePow, Nat.div_one]
  omega

theorem log2_lt_of_lt {mantissa : Nat} (mantissa_lt : mantissa < 2 ^ 52) :
    mantissa.log2 < 52 := by
  rcases Nat.eq_zero_or_pos mantissa with rfl | positive
  · decide
  · exact (Nat.log2_lt (Nat.ne_of_gt positive)).mpr mantissa_lt

theorem log2_of_implicit {mantissa : Nat} (mantissa_lt : mantissa < 2 ^ 52) :
    (2 ^ 52 + mantissa).log2 = 52 := by
  rw [Nat.log2_eq_iff (by omega)]
  omega

/-- The leading one that is not stored is no part of the mantissa field. -/
theorem ofNat_implicit (mantissa : BitVec 52) :
    BitVec.ofNat 52 (2 ^ 52 + mantissa.toNat) = mantissa := by
  apply BitVec.eq_of_toNat_eq
  rw [BitVec.toNat_ofNat, Nat.add_mod_left, Nat.mod_eq_of_lt mantissa.isLt]

/-- A biased exponent is stored as it was read. -/
theorem ofNat_biased (exponent : BitVec 11) :
    BitVec.ofNat 11 ((exponent.toNat : Int) - ((1023 : Nat) + (52 : Nat)) + (1023 : Nat)
      + (52 : Nat)).toNat = exponent := by
  apply BitVec.eq_of_toNat_eq
  have exponent_lt := exponent.isLt
  rw [BitVec.toNat_ofNat]
  omega

/-- Bits of a finite number come back from unpacking and packing. -/
theorem pack_unpack (bits : BitVec Format.binary64.numBits)
    (finite : unpackExponent bits ≠ -1#_) :
    pack Format.binary64 (unpack Format.binary64 bits) = bits := by
  have whole := packComponents_fields bits
  have mantissa_lt : (unpackMantissa bits).toNat < 2 ^ 52 := (unpackMantissa bits).isLt
  have exponent_lt : (unpackExponent bits).toNat < 2 ^ 11 := (unpackExponent bits).isLt
  have exponent_ne : (unpackExponent bits).toNat ≠ 2 ^ 11 - 1 := by
    intro same
    exact finite (BitVec.eq_of_toNat_eq same)
  have bias : Format.binary64.exponentBias = 1023 := by decide
  unfold unpack
  simp only [if_neg finite]
  split
  next exponent_zero =>
    rw [exponent_zero] at whole
    split
    next mantissa_zero =>
      rw [mantissa_zero] at whole
      exact whole
    next =>
      have short := log2_lt_of_lt mantissa_lt
      have unstored : ¬ (unpackMantissa bits).toNat.log2 + 1 = Format.binary64.mantissaBits := by
        change ¬ (unpackMantissa bits).toNat.log2 + 1 = 53
        omega
      simp only [pack, exponent_zero]
      rw [if_neg (by decide), if_neg unstored, BitVec.ofNat_toNat, BitVec.setWidth_eq]
      exact whole
  next =>
    have implicit : (1#1 ++ unpackMantissa bits).toNat = 2 ^ 52 + (unpackMantissa bits).toNat := by
      rw [BitVec.toNat_append, ← Nat.shiftLeft_add_eq_or_of_lt mantissa_lt]
      rfl
    simp only [pack, implicit, log2_of_implicit mantissa_lt]
    rw [if_neg (by rw [bias]; simp; omega), if_pos (by decide), bias]
    refine Eq.trans ?_ whole
    congr 1
    · exact ofNat_biased (unpackExponent bits)
    · exact ofNat_implicit (unpackMantissa bits)

/-- A magnitude below infinity leaves the exponent field less than full. -/
theorem unpackExponent_ne {magnitude : Nat} (finite : magnitude < infinity) :
    @unpackExponent Format.binary64 (UInt64.ofNat magnitude).toBitVec ≠ -1#_ := by
  have bound : infinity = 2047 * 2 ^ 52 := by decide
  intro full
  have exponent_eq : magnitude % 2 ^ 64 / 2 ^ 52 % 2 ^ 11 = 2047 := by
    have values_eq := congrArg BitVec.toNat full
    rw [unpackExponent, BitVec.toNat_cast, BitVec.extractLsb_toNat,
      Nat.shiftRight_eq_div_pow] at values_eq
    exact values_eq
  omega

theorem toBits_ofMagnitude {magnitude : Nat} (finite : magnitude < infinity) :
    (ofMagnitude magnitude).toBits = .ofNat magnitude := by
  apply UInt64.toBitVec_inj.mp
  exact pack_unpack _ (unpackExponent_ne finite)

/-- A magnitude below infinity is the magnitude of the double made from it. -/
theorem magnitude_ofMagnitude {magnitude : Nat} (finite : magnitude < infinity) :
    Binary64.magnitude (ofMagnitude magnitude) = magnitude := by
  have bound : infinity = 2047 * 2 ^ 52 := by decide
  rw [Binary64.magnitude, toBits_ofMagnitude finite, UInt64.toNat_ofNat']
  change magnitude % 2 ^ 64 % 2 ^ 63 = magnitude
  omega

theorem not_isSigned_ofMagnitude {magnitude : Nat} (finite : magnitude < infinity) :
    isSigned (ofMagnitude magnitude) = false := by
  have bound : infinity = 2047 * 2 ^ 52 := by decide
  rw [isSigned, toBits_ofMagnitude finite, UInt64.toNat_ofNat']
  change decide (2 ^ 63 ≤ magnitude % 2 ^ 64) = false
  simp only [decide_eq_false_iff_not]
  omega

/-- A magnitude below infinity is that of a finite double. -/
theorem isFinite_ofMagnitude {magnitude : Nat} (finite : magnitude < infinity) :
    (ofMagnitude magnitude).isFinite = true := by
  change (unpack Format.binary64 (ofMagnitude magnitude).toBits.toBitVec).isFinite = true
  rw [toBits_ofMagnitude finite, unpack]
  simp only [if_neg (unpackExponent_ne finite)]
  split
  · split <;> rfl
  · rfl

end Scriptlet.Binary64
