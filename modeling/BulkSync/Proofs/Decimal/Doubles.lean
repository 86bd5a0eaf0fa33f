import BulkSync.Proofs.Decimal.Interval
import Mathlib

set_option autoImplicit false

-- What is known of the bits of floats comes with no smaller part of the library.

namespace BulkSync.Decimal

open Float.Model (Format)
open Float.Model.UnpackedFloat

def signOf (negative : Bool) : Sign := if negative then .negative else .positive

inductive Parts.Of : Parts → Float.Model.UnpackedFloat → Prop
  | nan : Of .nan .notANumber
  | infinite (negative : Bool) : Of (.infinite negative) (.infinity (signOf negative))
  | zero (negative : Bool) : Of (.zero negative) (.zero (signOf negative))
  | finite (negative : Bool) {d : Dyadic} (double : d.Double) :
      Of (.finite negative d)
        (.finite (signOf negative) d.mantissa d.exponent double.positive)

section Unpack

variable (bits : UInt64)

theorem toNat_fraction :
    (bits &&& 0xfffffffffffff).toNat = (@unpackMantissa .binary64 bits.toBitVec).toNat := by
  have mask := Nat.and_two_pow_sub_one_eq_mod bits.toNat 52
  simpa [unpackMantissa] using mask

theorem toNat_biased :
    ((bits >>> 52) &&& 0x7ff).toNat = (@unpackExponent .binary64 bits.toBitVec).toNat := by
  have mask := Nat.and_two_pow_sub_one_eq_mod (bits.toNat >>> 52) 11
  simpa [unpackExponent] using mask

theorem sign_unpack :
    Sign.ofBitVec (@unpackSign .binary64 bits.toBitVec) = signOf (bits >>> 63 = 1) := by
  have top : (@unpackSign .binary64 bits.toBitVec).toNat = (bits >>> 63).toNat := by
    have small := bits.toNat_lt
    have mask : bits.toNat >>> 63 % 2 = bits.toNat >>> 63 := by
      rw [Nat.shiftRight_eq_div_pow]
      omega
    simpa [unpackSign] using mask
  have one : bits >>> 63 = 1 ↔ @unpackSign .binary64 bits.toBitVec = 1#1 := by
    rw [← UInt64.toNat_inj, ← BitVec.toNat_inj, top]
    rfl
  rcases BitVec.eq_zero_or_eq_one (@unpackSign .binary64 bits.toBitVec) with zero | set
  · have clear : ¬bits >>> 63 = 1 := by simp [one, zero]
    simp [zero, clear, signOf, Sign.ofBitVec]
  · simp [set, one, signOf, Sign.ofBitVec]

end Unpack

theorem toNat_implicit (m : BitVec 52) : (1#1 ++ m).toNat = 2 ^ 52 + m.toNat := by
  rw [BitVec.toNat_append, Nat.shiftLeft_eq]
  exact (Nat.two_pow_add_eq_or_of_lt m.isLt 1).symm

theorem double_normal {fraction biased : Nat} (small : fraction < 2 ^ 52) (positive : biased ≠ 0)
    (finite : biased < 2047) :
    Dyadic.Double
      ⟨0x10000000000000 + fraction, biased - 1075, fraction = 0 ∧ 1 < biased⟩ := by
  constructor <;> simp only [decide_eq_true_eq] <;> omega

theorem double_subnormal {fraction : Nat} (small : fraction < 2 ^ 52) (positive : fraction ≠ 0) :
    Dyadic.Double ⟨fraction, -1074, false⟩ := by
  have other : fraction ≠ 2 ^ 52 := Nat.ne_of_lt small
  exact ⟨Nat.pos_of_ne_zero positive, by simp only; omega, le_rfl, by norm_num, .inr rfl,
    by simp only [Bool.false_eq_true, other, false_and]⟩

theorem parts_of_bits (bits : UInt64) :
    (Parts.ofBits bits).Of (unpack .binary64 bits.toBitVec) := by
  have small : (@unpackMantissa .binary64 bits.toBitVec).toNat < 2 ^ 52 := BitVec.isLt _
  have top : (@unpackExponent .binary64 bits.toBitVec).toNat < 2 ^ 11 := BitVec.isLt _
  have all : @unpackExponent .binary64 bits.toBitVec = -1#11 ↔
      (@unpackExponent .binary64 bits.toBitVec).toNat = 2047 := by
    rw [← BitVec.toNat_inj]
    rfl
  have bottom : @unpackExponent .binary64 bits.toBitVec = 0#11 ↔
      (@unpackExponent .binary64 bits.toBitVec).toNat = 0 := by
    rw [← BitVec.toNat_inj]
    rfl
  have empty : @unpackMantissa .binary64 bits.toBitVec = 0#52 ↔
      (@unpackMantissa .binary64 bits.toBitVec).toNat = 0 := by
    rw [← BitVec.toNat_inj]
    rfl
  simp only [Parts.ofBits, unpack, toNat_fraction, toNat_biased, sign_unpack, all, bottom, empty]
  by_cases special : (@unpackExponent .binary64 bits.toBitVec).toNat = 2047
  · by_cases zero : (@unpackMantissa .binary64 bits.toBitVec).toNat = 0
    · simp only [special, zero, if_true]
      exact .infinite _
    · simp only [special, zero, if_true, if_false]
      exact .nan
  · by_cases low : (@unpackExponent .binary64 bits.toBitVec).toNat = 0
    · by_cases zero : (@unpackMantissa .binary64 bits.toBitVec).toNat = 0
      · simp only [low, zero, if_true, dif_pos]
        exact .zero _
      · simp only [low, zero, if_true, if_false, dif_neg, not_false_eq_true]
        exact .finite _ (double_subnormal small zero)
    · simp only [special, low, if_false]
      have double := double_normal small low (by omega)
      rw [finite_congr double.positive (toNat_implicit _) rfl]
      exact .finite _ double

theorem parts_of (x : Float) : (Parts.ofBits x.toBits).Of x.toModel.unpack :=
  parts_of_bits x.toBits

theorem ofModel_pack_unpack (x : Float) : Float.ofModel (.pack x.toModel.unpack) = x :=
  Float.ofBits_toBits x

section Words

variable (s : Sign) {e : BitVec 11} {m : BitVec 52} {exponent : Int}

theorem pack_normal (finite : e ≠ -1#11) (unbiased : exponent = e.toNat - (1023 + 52 : Nat))
    (positive : 0 < (1#1 ++ m).toNat) :
    pack .binary64 (.finite s (1#1 ++ m).toNat exponent positive) =
      packComponents .binary64 s e m := by
  have small := m.isLt
  have mantissa := toNat_implicit m
  have bits : (1#1 ++ m).toNat.log2 = 52 := by
    rw [mantissa, Nat.log2_eq_iff (by omega)]
    omega
  have below : e.toNat + 1 < 2 ^ 11 := by
    have := e.isLt
    have : e.toNat ≠ 2 ^ 11 - 1 := fun same => finite (BitVec.eq_of_toNat_eq same)
    omega
  have biased : (exponent + Format.binary64.exponentBias + (52 : Nat)).toNat = e.toNat := by
    show (exponent + (1023 : Nat) + (52 : Nat)).toNat = _
    omega
  have cleared : BitVec.ofNat 52 (1#1 ++ m).toNat = m := by
    refine BitVec.eq_of_toNat_eq ?_
    rw [mantissa, BitVec.toNat_ofNat]
    omega
  simp only [pack, bits, biased, Nat.not_le.2 below, if_false, cleared, BitVec.ofNat_toNat,
    BitVec.setWidth_eq]
  rfl

theorem pack_subnormal (lowest : exponent = -1074) (positive : 0 < m.toNat) :
    pack .binary64 (.finite s m.toNat exponent positive) =
      packComponents .binary64 s 0#11 m := by
  have bits : m.toNat.log2 < 52 := (Nat.log2_lt (Nat.ne_of_gt positive)).2 m.isLt
  have biased : (exponent + Format.binary64.exponentBias + (52 : Nat)).toNat = 1 := by
    show (exponent + (1023 : Nat) + (52 : Nat)).toNat = _
    omega
  have implicit : ¬m.toNat.log2 + 1 = Format.binary64.mantissaBits := by
    show ¬m.toNat.log2 + 1 = 53
    omega
  have below : ¬2 ^ 11 ≤ 1 + 1 := by omega
  simp only [pack, biased, below, implicit, if_false, BitVec.ofNat_toNat, BitVec.setWidth_eq]

end Words

section Pack

variable {d : Dyadic} (double : d.Double) (s : Sign)

theorem unpack_pack :
    unpack .binary64 (pack .binary64 (.finite s d.mantissa d.exponent double.positive)) =
      .finite s d.mantissa d.exponent double.positive := by
  have lowest := double.lowest
  have highest := double.highest
  have below := double.below
  by_cases normal : 2 ^ 52 ≤ d.mantissa
  · obtain ⟨m, mantissa⟩ : ∃ m : BitVec 52, d.mantissa = (1#1 ++ m).toNat := by
      refine ⟨.ofNat 52 (d.mantissa - 2 ^ 52), ?_⟩
      rw [toNat_implicit, BitVec.toNat_ofNat]
      omega
    obtain ⟨e, biased⟩ : ∃ e : BitVec 11, (e.toNat : Int) = d.exponent + 1075 := by
      refine ⟨.ofNat 11 (d.exponent + 1075).toNat, ?_⟩
      rw [BitVec.toNat_ofNat]
      omega
    have finite : e ≠ -1#11 := by
      rw [Ne, ← BitVec.toNat_inj]
      exact fun all => absurd (show e.toNat = 2047 from all) (by omega)
    have positive : e ≠ 0#11 := by
      rw [Ne, ← BitVec.toNat_inj]
      exact fun none => absurd (show e.toNat = 0 from none) (by omega)
    have unbiased : d.exponent = e.toNat - (1023 + 52 : Nat) := by omega
    have implicit : 0 < (1#1 ++ m).toNat := mantissa ▸ double.positive
    rw [finite_congr implicit mantissa rfl, pack_normal s finite unbiased]
    simp only [unpack, unpackMantissa_packComponents, unpackExponent_packComponents,
      unpackSign_packComponents, Sign.ofBitVec_toBitVec, finite, positive, if_false]
    exact finite_congr _ rfl unbiased.symm
  · have lowest : d.exponent = -1074 := double.normal.resolve_left normal
    obtain ⟨m, mantissa⟩ : ∃ m : BitVec 52, d.mantissa = m.toNat := by
      refine ⟨.ofNat 52 d.mantissa, ?_⟩
      rw [BitVec.toNat_ofNat]
      omega
    have positive : 0 < m.toNat := mantissa ▸ double.positive
    have some : m ≠ 0#52 := by
      rintro rfl
      exact absurd positive (by decide)
    rw [finite_congr positive mantissa rfl, pack_subnormal s lowest]
    simp only [unpack, unpackMantissa_packComponents, unpackExponent_packComponents,
      unpackSign_packComponents, Sign.ofBitVec_toBitVec, some, dif_neg, not_false_eq_true]
    exact finite_congr _ rfl lowest.symm

end Pack

end BulkSync.Decimal
