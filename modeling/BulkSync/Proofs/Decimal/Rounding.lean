import BulkSync.Proofs.Decimal.Interval
import Mathlib.Algebra.Order.Field.Power

set_option autoImplicit false

namespace BulkSync.Decimal

open Float.Model (Format totalExponent)
open Float.Model.UnpackedFloat

-- What a mantissa and its two residual bits say about a number.
def Between (em : ExtendedMantissa) (x : ℚ) : Prop :=
  match em.roundBit, em.stickyBit with
  | false, false => x = em.mantissa
  | false, true => em.mantissa < x ∧ x < em.mantissa + 1 / 2
  | true, false => x = em.mantissa + 1 / 2
  | true, true => em.mantissa + 1 / 2 < x ∧ x < em.mantissa + 1

variable {em : ExtendedMantissa} {x : ℚ}

theorem Between.bounds (between : Between em x) : em.mantissa ≤ x ∧ x < em.mantissa + 1 := by
  obtain ⟨m, round, sticky⟩ := em
  cases round <;> cases sticky <;> simp only [Between] at between <;>
    constructor <;> linarith

theorem Between.shiftRightOne (between : Between em x) : Between em.shiftRightOne (x / 2) := by
  have bounds := between.bounds
  obtain ⟨m, round, sticky⟩ := em
  -- The bit that is shifted out is the new round bit; the old bits say whether anything is left.
  have left : (round || sticky) = false ↔ x = m := by
    cases round <;> cases sticky <;> simp only [Between] at between <;> simp <;> linarith
  obtain ⟨k, rfl | rfl⟩ := Nat.even_or_odd' m
  · have half : (2 * k) / 2 = k := by omega
    cases rest : round || sticky <;>
      simp [Between, ExtendedMantissa.shiftRightOne, half, rest] at left bounds ⊢
    · linarith
    · have above : (2 * k : ℚ) ≠ x := fun same => left same.symm
      have := lt_of_le_of_ne bounds.1 above
      constructor <;> linarith
  · have half : (2 * k + 1) / 2 = k := by omega
    cases rest : round || sticky <;>
      simp [Between, ExtendedMantissa.shiftRightOne, half, rest] at left bounds ⊢
    · linarith
    · have above : (2 * k + 1 : ℚ) ≠ x := fun same => left same.symm
      have := lt_of_le_of_ne bounds.1 above
      constructor <;> linarith

theorem Between.shiftRight (between : Between em x) (n : Nat) :
    Between (em >>> n) (x / 2 ^ n) := by
  induction n with
  | zero =>
    rw [pow_zero, div_one]
    exact between
  | succ n ih =>
    have next := ih.shiftRightOne
    rw [div_div, ← pow_succ] at next
    exact next

def Nearest (m : Nat) (x : ℚ) : Prop :=
  if m % 2 = 0 then m - 1 / 2 ≤ x ∧ x ≤ m + 1 / 2 else m - 1 / 2 < x ∧ x < m + 1 / 2

theorem Between.rounded (between : Between em x) {m : Nat} (nearest : Nearest m x) :
    em.roundedMantissa = m := by
  obtain ⟨k, round, sticky⟩ := em
  have near : (m : ℚ) - 1 / 2 ≤ x ∧ x ≤ m + 1 / 2 := by
    unfold Nearest at nearest
    split at nearest
    next => exact nearest
    next => exact ⟨nearest.1.le, nearest.2.le⟩
  cases round <;> cases sticky <;> simp only [Between] at between <;>
    simp only [ExtendedMantissa.roundedMantissa, ExtendedMantissa.accuracy,
      Accuracy.roundToNearestEven]
  · have below : (k : ℚ) < m + 1 := by linarith
    have above : (m : ℚ) < k + 1 := by linarith
    norm_cast at below above
    omega
  · have below : (k : ℚ) < m + 1 := by linarith
    have above : (m : ℚ) < k + 1 := by linarith
    norm_cast at below above
    omega
  · -- Halfway between two integers only the even one is near.
    have even : m % 2 = 0 := by
      by_contra odd
      rw [Nearest, if_neg odd] at nearest
      have below : (k : ℚ) < m := by linarith
      have above : (m : ℚ) < k + 1 := by linarith
      norm_cast at below above
      omega
    have below : (k : ℚ) ≤ m := by linarith
    have above : (m : ℚ) ≤ k + 1 := by linarith
    norm_cast at below above
    omega
  · have below : (k : ℚ) < m := by linarith
    have above : (m : ℚ) < k + 2 := by linarith
    norm_cast at below above
    omega

section Near

variable {d : Dyadic} {q : ℚ}

theorem low_div (d : Dyadic) :
    d.low / 2 ^ d.exponent = d.mantissa - if d.narrow then 1 / 4 else 1 / 2 := by
  rw [Dyadic.low, zpow_sub₀ two_ne_zero]
  have nonzero : (2 : ℚ) ^ d.exponent ≠ 0 := by positivity
  field_simp
  split <;> ring

theorem high_div (d : Dyadic) : d.high / 2 ^ d.exponent = d.mantissa + 1 / 2 := by
  rw [Dyadic.high, zpow_sub₀ two_ne_zero]
  have nonzero : (2 : ℚ) ^ d.exponent ≠ 0 := by positivity
  field_simp
  ring

theorem near_iff : d.Near q ↔
    if d.mantissa % 2 = 0 then
      d.mantissa - (if d.narrow then 1 / 4 else 1 / 2) ≤ q / 2 ^ d.exponent ∧
        q / 2 ^ d.exponent ≤ d.mantissa + 1 / 2
    else
      d.mantissa - (if d.narrow then 1 / 4 else 1 / 2) < q / 2 ^ d.exponent ∧
        q / 2 ^ d.exponent < d.mantissa + 1 / 2 := by
  have positive : (0 : ℚ) < 2 ^ d.exponent := by positivity
  rw [Dyadic.Near, ← low_div, ← high_div]
  simp only [div_le_div_iff_of_pos_right positive, div_lt_div_iff_of_pos_right positive]

theorem Near.bounds (near : d.Near q) :
    d.mantissa - (if d.narrow then 1 / 4 else 1 / 2) ≤ q / 2 ^ d.exponent ∧
      q / 2 ^ d.exponent ≤ d.mantissa + 1 / 2 := by
  rw [near_iff] at near
  by_cases even : d.mantissa % 2 = 0
  · rwa [if_pos even] at near
  · rw [if_neg even] at near
    exact ⟨near.1.le, near.2.le⟩

theorem Near.nearest (near : d.Near q) : Nearest d.mantissa (q / 2 ^ d.exponent) := by
  rw [near_iff] at near
  have wider : (if d.narrow then 1 / 4 else 1 / 2 : ℚ) ≤ 1 / 2 := by split <;> norm_num
  unfold Nearest
  by_cases even : d.mantissa % 2 = 0
  · rw [if_pos even] at near ⊢
    exact ⟨by linarith, near.2⟩
  · rw [if_neg even] at near ⊢
    exact ⟨by linarith, near.2⟩

theorem lt_of_powers {a b : Int} (least : 2 ^ a ≤ q) (below : q < 2 ^ b) : a < b :=
  (zpow_lt_zpow_iff_right₀ one_lt_two).1 (least.trans_lt below)

-- Only the lowest mantissa of an exponent takes anything below the power of two.
theorem lowest_of_near (double : d.Double) (near : d.Near q) (higher : -1074 < d.exponent)
    (beneath : q / 2 ^ d.exponent < 2 ^ 52) :
    d.mantissa = 2 ^ 52 ∧ 2 ^ 52 - 1 / 4 ≤ q / 2 ^ d.exponent := by
  have lower := (Near.bounds near).1
  have normal : 2 ^ 52 ≤ d.mantissa := by
    have := double.normal
    omega
  have mantissa : d.mantissa = 2 ^ 52 := by
    by_contra other
    have more : 2 ^ 52 + 1 ≤ d.mantissa := by omega
    have more : (2 ^ 52 + 1 : ℚ) ≤ d.mantissa := by exact_mod_cast more
    have wider : (if d.narrow then 1 / 4 else 1 / 2 : ℚ) ≤ 1 / 2 := by split <;> norm_num
    norm_num at beneath
    linarith
  have narrow := double.narrow.2 ⟨mantissa, higher⟩
  rw [if_pos narrow, mantissa] at lower
  exact ⟨mantissa, by exact_mod_cast lower⟩

-- The exponent that a number is first rounded at is the one of the double, or it is one less: just
-- below a power of two the numbers are twice as close.
theorem exponent_of_near (double : d.Double) (near : d.Near q) {size : Int}
    (least : 2 ^ size ≤ q) (below : q < 2 ^ (size + 1)) :
    max (size - 52) (-1074) = d.exponent ∨
      max (size - 52) (-1074) = d.exponent - 1 ∧ d.mantissa = 2 ^ 52 ∧
        Nearest (2 ^ 53) (q / 2 ^ (d.exponent - 1)) := by
  have upper := (Near.bounds near).2
  have unit : (0 : ℚ) < 2 ^ d.exponent := by positivity
  have top : size < 53 + d.exponent := by
    refine lt_of_powers least ?_
    have mantissa : (d.mantissa : ℚ) + 1 ≤ 2 ^ 53 := by exact_mod_cast double.below
    rw [zpow_add₀ two_ne_zero, ← div_lt_iff₀ unit]
    norm_num at mantissa ⊢
    linarith
  obtain lowest | higher := double.lowest.eq_or_lt
  · left
    omega
  by_cases reached : 2 ^ (52 + d.exponent) ≤ q
  · have bottom := lt_of_powers reached below
    left
    have := double.lowest
    omega
  · rw [not_le, zpow_add₀ two_ne_zero, ← div_lt_iff₀ unit] at reached
    obtain ⟨mantissa, lower⟩ := lowest_of_near double near higher (by exact_mod_cast reached)
    have half : q / 2 ^ (d.exponent - 1) = 2 * (q / 2 ^ d.exponent) := by
      rw [zpow_sub_one₀ two_ne_zero]
      field_simp
    have bottom : 51 + d.exponent < size + 1 := by
      refine lt_of_powers ?_ below
      rw [zpow_add₀ two_ne_zero, ← le_div_iff₀ unit]
      norm_num at lower ⊢
      linarith
    by_cases same : size = 52 + d.exponent
    · left
      omega
    · refine .inr ⟨by omega, mantissa, ?_⟩
      rw [Nearest, if_pos (by decide), half]
      norm_num at lower reached ⊢
      constructor <;> linarith

theorem exponent_of_tiny (double : d.Double) (near : d.Near q) (tiny : q < 2 ^ (-1074 : Int)) :
    d.exponent = -1074 := by
  by_contra other
  have lowest := double.lowest
  have normal : 2 ^ 52 ≤ d.mantissa := double.normal.resolve_right other
  have mantissa : (2 ^ 52 : ℚ) ≤ d.mantissa := by exact_mod_cast normal
  have unit : (0 : ℚ) < 2 ^ d.exponent := by positivity
  have lower := (Near.bounds near).1
  have wider : (if d.narrow then 1 / 4 else 1 / 2 : ℚ) ≤ 1 / 2 := by split <;> norm_num
  have least : 2 ^ d.exponent ≤ q := by
    rw [← one_le_div unit]
    linarith
  have small := lt_of_powers least tiny
  omega

end Near

section Round

variable {d : Dyadic} {q : ℚ}

theorem targetExponent_binary64 (size : Int) :
    Format.binary64.targetExponent size = max (size - 53) (-1074) := rfl

theorem log2_of_between {m : Nat} {y : ℚ} (nonzero : m ≠ 0) (least : m ≤ y) (below : y < m + 1) :
    2 ^ (m.log2 : Int) ≤ y ∧ y < 2 ^ (m.log2 + 1 : Int) := by
  have lower : 2 ^ m.log2 ≤ m := Nat.log2_self_le nonzero
  have upper : m + 1 ≤ 2 ^ (m.log2 + 1) := Nat.lt_log2_self
  have lower : (2 ^ m.log2 : ℚ) ≤ m := by exact_mod_cast lower
  have upper : (m + 1 : ℚ) ≤ 2 ^ (m.log2 + 1) := by exact_mod_cast upper
  rw [zpow_natCast, zpow_add₀ two_ne_zero, zpow_natCast, zpow_one, ← pow_succ]
  exact ⟨lower.trans least, below.trans_le upper⟩

-- A shift to the exponent asked for, and what is left of the mantissa is rounded.
theorem first_shift {m : Nat} {e : Int} {acc : Accuracy}
    (between : Between (.ofMantissaAndAccuracy m acc) (q / 2 ^ e)) {target : Int}
    (asked : Format.binary64.targetExponent (totalExponent m e) = target) (finer : e ≤ target) :
    Between (shiftToTargetExponent .binary64 m e acc).1 (q / 2 ^ target) ∧
      (shiftToTargetExponent .binary64 m e acc).2 = target := by
  have reached : e + ((target - e).toNat : Int) = target := by omega
  have shifted := between.shiftRight (target - e).toNat
  rw [div_div, ← zpow_natCast, ← zpow_add₀ two_ne_zero, reached] at shifted
  simp only [shiftToTargetExponent, shiftToExponent, asked]
  exact ⟨shifted, reached⟩

theorem target_of_double (double : d.Double) :
    Format.binary64.targetExponent (totalExponent d.mantissa d.exponent) = d.exponent := by
  have nonzero := Nat.ne_of_gt double.positive
  have top : d.mantissa.log2 < 53 := (Nat.log2_lt nonzero).2 double.below
  have lowest := double.lowest
  rw [targetExponent_binary64, totalExponent]
  obtain normal | lowest := double.normal
  · have bottom : 52 ≤ d.mantissa.log2 := (Nat.le_log2 nonzero).2 normal
    omega
  · omega

-- Rounding may have carried into one more bit, which the second shift takes back.
theorem second_shift (double : d.Double) {m : Nat} {e : Int}
    (rounded : m = d.mantissa ∧ e = d.exponent ∨
      m = 2 ^ 53 ∧ d.mantissa = 2 ^ 52 ∧ e = d.exponent - 1) :
    (shiftToTargetExponent .binary64 m e .exact).1.mantissa = d.mantissa ∧
      (shiftToTargetExponent .binary64 m e .exact).2 = d.exponent := by
  have target : Format.binary64.targetExponent (totalExponent m e) = d.exponent := by
    obtain ⟨rfl, rfl⟩ | ⟨rfl, -, rfl⟩ := rounded
    · exact target_of_double double
    · have lowest := double.lowest
      rw [targetExponent_binary64, totalExponent, Nat.log2_two_pow]
      omega
  simp only [shiftToTargetExponent, shiftToExponent, target]
  obtain ⟨rfl, rfl⟩ | ⟨rfl, mantissa, rfl⟩ := rounded
  · rw [sub_self]
    exact ⟨rfl, by simp⟩
  · rw [sub_sub_cancel, mantissa]
    exact ⟨rfl, by simp⟩

theorem roundWithAccuracy_of_near (double : d.Double) (near : d.Near q) {m : Nat} {e : Int}
    {acc : Accuracy}
    (between : Between (.ofMantissaAndAccuracy m acc) (q / 2 ^ e))
    (precise : 52 ≤ m.log2 ∨ e ≤ -1074) (s : Sign) :
    roundWithAccuracy .binary64 s m e acc = .finite s d.mantissa d.exponent double.positive := by
  have unit : (0 : ℚ) < 2 ^ e := by positivity
  have known : (ExtendedMantissa.ofMantissaAndAccuracy m acc).mantissa = m := by
    cases acc with
    | exact => rfl
    | inexact order => cases order <;> rfl
  obtain ⟨target, asked, finer, found⟩ : ∃ target,
      Format.binary64.targetExponent (totalExponent m e) = target ∧ e ≤ target ∧
        (target = d.exponent ∨ target = d.exponent - 1 ∧ d.mantissa = 2 ^ 52 ∧
          Nearest (2 ^ 53) (q / 2 ^ (d.exponent - 1))) := by
    refine ⟨_, rfl, ?_, ?_⟩
    · rw [targetExponent_binary64, totalExponent]
      omega
    · have bounds := between.bounds
      rw [known] at bounds
      by_cases nothing : m = 0
      · have small : e ≤ -1074 := precise.resolve_left (by simp [nothing])
        have tiny : q < 2 ^ (-1074 : Int) := by
          have below := bounds.2
          rw [nothing, Nat.cast_zero, zero_add, div_lt_one unit] at below
          exact below.trans_le (zpow_le_zpow_right₀ one_le_two small)
        left
        rw [exponent_of_tiny double near tiny, targetExponent_binary64, totalExponent, nothing,
          Nat.log2_zero]
        omega
      · obtain ⟨least, below⟩ := log2_of_between nothing bounds.1 bounds.2
        rw [le_div_iff₀ unit, ← zpow_add₀ two_ne_zero] at least
        rw [div_lt_iff₀ unit, ← zpow_add₀ two_ne_zero, add_right_comm] at below
        have exponent := exponent_of_near double near least below
        rw [targetExponent_binary64, totalExponent]
        rwa [show (m.log2 + 1 + e - 53 : Int) = m.log2 + e - 52 by omega]
  obtain ⟨first, exponent⟩ := first_shift between asked finer
  have rounded : (shiftToTargetExponent .binary64 m e acc).1.roundedMantissa = d.mantissa ∧
        target = d.exponent ∨
      (shiftToTargetExponent .binary64 m e acc).1.roundedMantissa = 2 ^ 53 ∧
        d.mantissa = 2 ^ 52 ∧ target = d.exponent - 1 := by
    obtain rfl | ⟨rfl, mantissa, nearest⟩ := found
    · exact .inl ⟨first.rounded (Near.nearest near), rfl⟩
    · exact .inr ⟨first.rounded nearest, mantissa, rfl⟩
  obtain ⟨mantissa, final⟩ := second_shift double rounded
  rw [← exponent] at mantissa final
  have some := mantissa.trans_ne (Nat.ne_of_gt double.positive)
  exact (dif_neg some).trans (finite_congr double.positive mantissa final)

theorem mul_of_near (double : d.Double) (s₁ s₂ : Sign) {m₁ m₂ : Nat} {e₁ e₂ : Int}
    (pos₁ : 0 < m₁) (pos₂ : 0 < m₂) (near : d.Near (m₁ * 2 ^ e₁ * (m₂ * 2 ^ e₂)))
    (precise : 2 ^ 52 ≤ m₁) :
    mul .binary64 (.finite s₁ m₁ e₁ pos₁) (.finite s₂ m₂ e₂ pos₂) =
      .finite (s₁ * s₂) d.mantissa d.exponent double.positive := by
  refine roundWithAccuracy_of_near double near ?_ (.inl ?_) _
  · show _ = ((m₁ * m₂ : Nat) : ℚ)
    rw [zpow_add₀ two_ne_zero]
    have : (2 : ℚ) ^ e₁ ≠ 0 := by positivity
    have : (2 : ℚ) ^ e₂ ≠ 0 := by positivity
    push_cast
    field_simp
  · rw [Nat.le_log2 (Nat.mul_ne_zero (Nat.ne_of_gt pos₁) (Nat.ne_of_gt pos₂))]
    exact precise.trans (Nat.le_mul_of_pos_right m₁ pos₂)

theorem between_quotient (m : Nat) {n : Nat} (positive : 0 < n) :
    Between (.ofMantissaAndAccuracy (m / n) (accuracyOfFraction (m % n) n)) (m / n) := by
  have denominator : (0 : ℚ) < n := by exact_mod_cast positive
  have split : (m : ℚ) = n * (m / n : Nat) + (m % n : Nat) := by
    exact_mod_cast (Nat.div_add_mod m n).symm
  have less := Nat.mod_lt m positive
  generalize m / n = whole, m % n = rest at split less ⊢
  have value : (m / n : ℚ) = whole + rest / n := by
    rw [split]
    field_simp
  rw [value, accuracyOfFraction]
  by_cases none : rest = 0
  · simp [none, Between, ExtendedMantissa.ofMantissaAndAccuracy]
  · have some : (0 : ℚ) < rest := by exact_mod_cast Nat.pos_of_ne_zero none
    have part : (0 : ℚ) < rest / n := by positivity
    have less : (rest / n : ℚ) < 1 := (div_lt_one denominator).2 (by exact_mod_cast less)
    rw [if_neg none]
    cases order : compare (2 * rest) n with
    | lt =>
      have half : (2 * rest : ℚ) < n := by exact_mod_cast Nat.compare_eq_lt.1 order
      have half : (rest / n : ℚ) < 1 / 2 := by
        rw [div_lt_div_iff₀ denominator two_pos]
        linarith
      simp only [Between, ExtendedMantissa.ofMantissaAndAccuracy]
      constructor <;> linarith
    | eq =>
      have half : (2 * rest : ℚ) = n := by exact_mod_cast Nat.compare_eq_eq.1 order
      have half : (rest / n : ℚ) = 1 / 2 := by
        rw [div_eq_div_iff denominator.ne' two_ne_zero]
        linarith
      simp [Between, ExtendedMantissa.ofMantissaAndAccuracy, half]
    | gt =>
      have half : (n : ℚ) < 2 * rest := by exact_mod_cast Nat.compare_eq_gt.1 order
      have half : (1 / 2 : ℚ) < rest / n := by
        rw [div_lt_div_iff₀ two_pos denominator]
        linarith
      simp only [Between, ExtendedMantissa.ofMantissaAndAccuracy]
      constructor <;> linarith

-- A quotient is taken at an exponent so low that it has bits enough.
theorem log2_quotient {m₁ m₂ : Nat} (pos₁ : 0 < m₁) (pos₂ : 0 < m₂) {shift : Nat}
    (enough : m₂.log2 + 53 ≤ m₁.log2 + shift) : 52 ≤ ((m₁ <<< shift) / m₂).log2 := by
  have lower : 2 ^ m₁.log2 ≤ m₁ := Nat.log2_self_le (Nat.ne_of_gt pos₁)
  have upper : m₂ < 2 ^ (m₂.log2 + 1) := Nat.lt_log2_self
  have reached : 2 ^ 52 * m₂ ≤ m₁ <<< shift := calc
    2 ^ 52 * m₂ ≤ 2 ^ 52 * 2 ^ (m₂.log2 + 1) := Nat.mul_le_mul_left _ upper.le
    _ = 2 ^ (m₂.log2 + 53) := by rw [← pow_add]; congr 1; omega
    _ ≤ 2 ^ (m₁.log2 + shift) := Nat.pow_le_pow_right two_pos enough
    _ ≤ m₁ <<< shift := by
      rw [pow_add, Nat.shiftLeft_eq]
      exact Nat.mul_le_mul_right _ lower
  have quotient : 2 ^ 52 ≤ (m₁ <<< shift) / m₂ := (Nat.le_div_iff_mul_le pos₂).2 reached
  exact (Nat.le_log2 (by omega)).2 quotient

theorem div_of_near (double : d.Double) (s₁ s₂ : Sign) {m₁ m₂ : Nat} {e₁ e₂ : Int}
    (pos₁ : 0 < m₁) (pos₂ : 0 < m₂) (near : d.Near (m₁ * 2 ^ e₁ / (m₂ * 2 ^ e₂))) :
    div .binary64 (.finite s₁ m₁ e₁ pos₁) (.finite s₂ m₂ e₂ pos₂) =
      .finite (s₁ / s₂) d.mantissa d.exponent double.positive := by
  refine roundWithAccuracy_of_near double near ?_ ?_ _ <;>
    simp only [targetExponent_binary64, totalExponent]
  · generalize target_eq :
      min (e₁ - e₂) (max (m₁.log2 + 1 + e₁ - (m₂.log2 + 1 + e₂) - 53) (-1074)) = target
    have shift : (((e₁ - e₂ - target).toNat : Int)) = e₁ - e₂ - target := by omega
    have shifted : ((m₁ <<< (e₁ - e₂ - target).toNat : Nat) : ℚ) =
        m₁ * 2 ^ (e₁ - e₂ - target) := by
      rw [Nat.shiftLeft_eq, Nat.cast_mul, Nat.cast_pow, Nat.cast_two, ← zpow_natCast, shift]
    have value : (m₁ * 2 ^ e₁ / (m₂ * 2 ^ e₂) / 2 ^ target : ℚ) =
        (m₁ <<< (e₁ - e₂ - target).toNat : Nat) / m₂ := by
      rw [shifted, zpow_sub₀ two_ne_zero, zpow_sub₀ two_ne_zero]
      field_simp
    rw [value]
    exact between_quotient _ pos₂
  · refine or_iff_not_imp_right.2 fun larger => log2_quotient pos₁ pos₂ ?_
    omega

end Round

end BulkSync.Decimal
