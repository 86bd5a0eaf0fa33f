import BulkSync.Json.Number
import BulkSync.Proofs.Decimal.Doubles
import BulkSync.Proofs.Decimal.Rounding

set_option autoImplicit false

namespace BulkSync.Decimal

open Float.Model (Format totalExponent)
open Float.Model.UnpackedFloat

variable {d : Dyadic} {q : ℚ}

theorem near_of_lt (above : d.mantissa - (if d.narrow then 1 / 4 else 1 / 2) < q / 2 ^ d.exponent)
    (below : q / 2 ^ d.exponent < d.mantissa + 1 / 2) : d.Near q := by
  rw [near_iff]
  split
  next => exact ⟨above.le, below.le⟩
  next => exact ⟨above, below⟩

theorem near_self (d : Dyadic) : d.Near (d.mantissa * 2 ^ d.exponent) := by
  have unit : (2 : ℚ) ^ d.exponent ≠ 0 := by positivity
  have less : (0 : ℚ) < if d.narrow then 1 / 4 else 1 / 2 := by split <;> norm_num
  apply near_of_lt <;> rw [mul_div_cancel_right₀ _ unit] <;> linarith

theorem bounds_of_near (double : d.Double) (near : d.Near q) :
    2 ^ (-1075 : Int) ≤ q ∧ q < 2 ^ (1025 : Int) := by
  obtain ⟨lower, upper⟩ := Near.bounds near
  have unit : (0 : ℚ) < 2 ^ d.exponent := by positivity
  have wider : (if d.narrow then 1 / 4 else 1 / 2 : ℚ) ≤ 1 / 2 := by split <;> norm_num
  have least : (1 : ℚ) ≤ d.mantissa := by exact_mod_cast double.positive
  have most : (d.mantissa : ℚ) + 1 ≤ 2 ^ 53 := by exact_mod_cast double.below
  constructor
  · calc (2 : ℚ) ^ (-1075 : Int) ≤ 2 ^ (d.exponent - 1) :=
        zpow_le_zpow_right₀ one_le_two (by have := double.lowest; omega)
      _ = 1 / 2 * 2 ^ d.exponent := by rw [zpow_sub_one₀ two_ne_zero]; ring
      _ ≤ q := by
        rw [← le_div_iff₀ unit]
        linarith
  · calc q < 2 ^ 54 * 2 ^ d.exponent := by
          rw [← div_lt_iff₀ unit]
          norm_num at most ⊢
          linarith
      _ = 2 ^ (54 + d.exponent) := by rw [zpow_add₀ two_ne_zero]; norm_num
      _ ≤ 2 ^ (1025 : Int) := zpow_le_zpow_right₀ one_le_two (by have := double.highest; omega)

section Small

theorem log2_lt_of_small {m : Nat} (positive : 0 < m) (small : m < 2 ^ 53) : m.log2 < 53 :=
  (Nat.log2_lt (Nat.ne_of_gt positive)).2 small

theorem double_of_small {m : Nat} (positive : 0 < m) (small : m < 2 ^ 53) :
    Dyadic.Double ⟨m <<< (52 - m.log2), -(52 - m.log2 : Nat),
      decide (m <<< (52 - m.log2) = 2 ^ 52)⟩ := by
  have bits := log2_lt_of_small positive small
  have lower : 2 ^ 52 ≤ m <<< (52 - m.log2) := by
    have least : 2 ^ m.log2 ≤ m := Nat.log2_self_le (Nat.ne_of_gt positive)
    calc 2 ^ 52 = 2 ^ m.log2 * 2 ^ (52 - m.log2) := by rw [← pow_add]; congr 1; omega
      _ ≤ m <<< (52 - m.log2) := by
        rw [Nat.shiftLeft_eq]
        exact Nat.mul_le_mul_right _ least
  have upper : m <<< (52 - m.log2) < 2 ^ 53 := by
    have most : m < 2 ^ (m.log2 + 1) := Nat.lt_log2_self
    calc m <<< (52 - m.log2) < 2 ^ (m.log2 + 1) * 2 ^ (52 - m.log2) := by
          rw [Nat.shiftLeft_eq]
          exact Nat.mul_lt_mul_of_pos_right most (by positivity)
      _ = 2 ^ 53 := by rw [← pow_add]; congr 1; omega
  constructor <;> simp only [decide_eq_true_eq] <;> omega

theorem unpack_ofNat {m : Nat} (positive : 0 < m) (small : m < 2 ^ 53) :
    ofNat .binary64 m =
      .finite .positive (m <<< (52 - m.log2)) (-(52 - m.log2 : Nat))
        (double_of_small positive small).positive := by
  have bits := log2_lt_of_small positive small
  have above : compare (m : Int) 0 = .gt := Int.compare_eq_gt.2 (by omega)
  have shift : (-Format.binary64.targetExponent (totalExponent m 0)).toNat = 52 - m.log2 := by
    rw [targetExponent_binary64, totalExponent]
    omega
  have double := double_of_small positive small
  simp only [ofNat, ofInt, Float.Model.UnpackedFloat.normalize, above, Int.toNat_natCast,
    Float.Model.UnpackedFloat.round, decreaseExponent, zero_sub, shift]
  refine roundWithAccuracy_of_near double (near_self _) ?_ (.inl ?_) _
  · have unit : (2 : ℚ) ^ (-(52 - m.log2 : Nat) : Int) ≠ 0 := by positivity
    dsimp only
    rw [mul_div_cancel_right₀ _ unit]
    rfl
  · rw [Nat.le_log2 (Nat.ne_of_gt double.positive)]
    exact double.normal.resolve_right (by simp only; omega)

-- An integer of 53 bits is a float.
theorem unpack_toFloat {m : Nat} (positive : 0 < m) (small : m < 2 ^ 53) :
    ∃ (n : Nat) (e : Int) (bits : 0 < n),
      m.toUInt64.toFloat.toModel.unpack = .finite .positive n e bits ∧
        (n * 2 ^ e : ℚ) = m ∧ 2 ^ 52 ≤ n := by
  have double := double_of_small positive small
  have bits := log2_lt_of_small positive small
  have word : m.toUInt64.toNat = m := by
    rw [Nat.toUInt64_eq, UInt64.toNat_ofNat']
    omega
  refine ⟨_, -(52 - m.log2 : Nat), double.positive, ?_, ?_,
    double.normal.resolve_right (by simp only; omega)⟩
  · have unpacked := unpack_pack double .positive
    rw [← unpack_ofNat positive small] at unpacked
    rw [UInt64.toFloat, Float.Model.ofUInt64, ofUInt64, word]
    exact unpacked.trans (unpack_ofNat positive small)
  · simp only [Nat.shiftLeft_eq, Nat.cast_mul, Nat.cast_pow, Nat.cast_two, zpow_neg, zpow_natCast]
    field_simp

theorem unpack_power {e : Nat} (within : e < Float.exactlyRepresentablePowersOfTen.size) :
    ∃ (n : Nat) (k : Int) (bits : 0 < n),
      (Float.exactlyRepresentablePowersOfTen[e]).toModel.unpack = .finite .positive n k bits ∧
        (n * 2 ^ k : ℚ) = 10 ^ e := by
  have within : e < 23 := within
  simp only [Float.exactlyRepresentablePowersOfTen, List.getElem_toArray]
  -- 93 / 28 is close enough to the logarithm of ten to tell the highest bit of each power.
  refine ⟨10 ^ e * 2 ^ 52 / 2 ^ (93 * e / 28), (93 * e / 28 : Nat) - 52, ?_, ?_, ?_⟩
  · interval_cases e <;> decide
  · interval_cases e <;> simp only [List.getElem_cons_zero, List.getElem_cons_succ] <;> rfl
  · interval_cases e <;> norm_num

end Small

def float (double : d.Double) (negative : Bool) : Float :=
  .ofModel (.pack (.finite (signOf negative) d.mantissa d.exponent double.positive))

section Scientific

variable {m e : Nat}

theorem ofScientific_of_small (double : d.Double) (positive : 0 < m) (small : m < 2 ^ 53)
    (within : e ≤ 22) {down : Bool} (near : d.Near (if down then m / 10 ^ e else m * 10 ^ e)) :
    Float.ofScientific m down e = float double false := by
  obtain ⟨n, f, bits, unpacked, value, precise⟩ := unpack_toFloat positive small
  obtain ⟨p, k, some, power, ten⟩ :=
    unpack_power (show e < Float.exactlyRepresentablePowersOfTen.size by
      simp only [Float.exactlyRepresentablePowersOfTen, List.size_toArray, List.length_cons,
        List.length_nil]
      omega)
  rw [← value, ← ten] at near
  rw [Float.ofScientific, dif_pos ⟨small, within⟩]
  cases down with
  | true =>
    have divided := div_of_near double .positive .positive bits some near
    rw [← unpacked, ← power] at divided
    exact congrArg (Float.ofModel ∘ Float.Model.pack) divided
  | false =>
    have multiplied := mul_of_near double .positive .positive bits some near precise
    rw [← unpacked, ← power] at multiplied
    exact congrArg (Float.ofModel ∘ Float.Model.pack) multiplied

-- Powers of ten that are never computed are out of reach for a double.
theorem exponent_within (double : d.Double) (positive : 0 < m) {exponent : Int}
    (near : d.Near (m * 10 ^ exponent)) :
    exponent ≤ 2048 ∧ -(2048 + m.log2 : Int) ≤ exponent := by
  obtain ⟨least, below⟩ := bounds_of_near double near
  constructor
  · by_contra large
    have some : (1 : ℚ) ≤ m := by exact_mod_cast positive
    have grown : (2 : ℚ) ^ (1025 : Int) ≤ m * 10 ^ exponent := calc
      (2 : ℚ) ^ (1025 : Int) ≤ 2 ^ exponent := zpow_le_zpow_right₀ one_le_two (by omega)
      _ ≤ 10 ^ exponent := zpow_le_zpow_left₀ (by omega) (by norm_num) (by norm_num)
      _ ≤ m * 10 ^ exponent := le_mul_of_one_le_left (by positivity) some
    linarith
  · by_contra small
    have bits : m < 2 ^ (m.log2 + 1) := Nat.lt_log2_self
    have bits : (m : ℚ) < 2 ^ (m.log2 + 1 : Int) := by
      rw [← Nat.cast_one, ← Nat.cast_add, zpow_natCast]
      exact_mod_cast bits
    have shrunk : (10 : ℚ) ^ exponent ≤ 2 ^ exponent := by
      obtain ⟨k, rfl⟩ : ∃ k : Nat, exponent = -k := ⟨exponent.natAbs, by omega⟩
      rw [zpow_neg, zpow_neg, zpow_natCast, zpow_natCast]
      exact inv_anti₀ (by positivity) (pow_le_pow_left₀ (by norm_num) (by norm_num) k)
    have vanished : (m * 10 ^ exponent : ℚ) < 2 ^ (-1075 : Int) := calc
      (m * 10 ^ exponent : ℚ) < 2 ^ (m.log2 + 1 : Int) * 10 ^ exponent :=
        mul_lt_mul_of_pos_right bits (by positivity)
      _ ≤ 2 ^ (m.log2 + 1 : Int) * 2 ^ exponent :=
        mul_le_mul_of_nonneg_left shrunk (by positivity)
      _ = 2 ^ (m.log2 + 1 + exponent) := (zpow_add₀ two_ne_zero _ _).symm
      _ ≤ 2 ^ (-1075 : Int) := zpow_le_zpow_right₀ one_le_two (by omega)
    linarith

theorem unpacked_ofScientific (double : d.Double) (positive : 0 < m) {exponent : Int}
    (near : d.Near (m * 10 ^ exponent)) :
    ofScientific .binary64 m exponent =
      .finite .positive d.mantissa d.exponent double.positive := by
  obtain ⟨most, least⟩ := exponent_within double positive near
  have above : ¬exponent > 2 ^ Format.binary64.exponentBits := by
    show ¬exponent > 2 ^ 11
    omega
  have below : ¬exponent < -((2 ^ Format.binary64.exponentBits : Int) + m.log2) := by
    show ¬exponent < -((2 ^ 11 : Int) + m.log2)
    omega
  rw [ofScientific, dif_neg (Nat.ne_of_gt positive), if_neg above, if_neg below]
  by_cases whole : 0 ≤ exponent
  · rw [if_pos whole]
    obtain ⟨k, rfl⟩ := Int.eq_ofNat_of_zero_le whole
    refine mul_of_near double .positive .positive _ _ ?_ ?_
    · have value : (m * 10 ^ (k : Int) : ℚ) =
          (m <<< Format.binary64.mantissaBits : Nat) * 2 ^ (-Format.binary64.mantissaBits : Int) *
            ((10 ^ (k : Int).toNat : Nat) * 2 ^ (0 : Int)) := by
        rw [Nat.shiftLeft_eq, Int.toNat_natCast, zpow_neg, zpow_natCast, zpow_natCast]
        push_cast
        field_simp
      exact value ▸ near
    · rw [Nat.shiftLeft_eq]
      show 2 ^ 52 ≤ m * 2 ^ 53
      omega
  · rw [if_neg whole]
    obtain ⟨k, rfl⟩ : ∃ k : Nat, exponent = -k := ⟨exponent.natAbs, by omega⟩
    refine div_of_near double .positive .positive _ _ ?_
    simpa [div_eq_mul_inv] using near

theorem ofScientific_of_near (double : d.Double) (positive : 0 < m) {exponent : Int}
    (near : d.Near (m * 10 ^ exponent)) :
    Float.ofScientific m (exponent < 0) exponent.natAbs = float double false := by
  by_cases small : m < 2 ^ 53 ∧ exponent.natAbs ≤ 22
  · refine ofScientific_of_small double positive small.1 small.2 ?_
    by_cases negative : exponent < 0
    · rw [decide_eq_true negative, if_pos rfl]
      obtain ⟨k, rfl⟩ : ∃ k : Nat, exponent = -k := ⟨exponent.natAbs, by omega⟩
      simpa [div_eq_mul_inv] using near
    · rw [decide_eq_false negative, if_neg (by decide)]
      obtain ⟨k, rfl⟩ := Int.eq_ofNat_of_zero_le (not_lt.1 negative)
      simpa using near
  · have same : (if decide (exponent < 0) then Int.negOfNat exponent.natAbs
        else Int.ofNat exponent.natAbs) = exponent := by
      simp only [decide_eq_true_eq, Int.negOfNat_eq, Int.ofNat_eq_natCast]
      split <;> omega
    rw [Float.ofScientific, dif_neg small]
    simp only [same]
    exact congrArg (Float.ofModel ∘ Float.Model.pack) (unpacked_ofScientific double positive near)

end Scientific

end BulkSync.Decimal
