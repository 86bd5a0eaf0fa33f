import BulkSync.Decimal.Shortest
import Mathlib.Algebra.Order.Floor.Semifield
import Mathlib.Data.Rat.Floor
import Mathlib.Tactic.FieldSimp
import Mathlib.Tactic.Linarith
import Mathlib.Tactic.NormNum
import Mathlib.Tactic.Positivity
import Mathlib.Tactic.Ring

set_option autoImplicit false

namespace BulkSync.Decimal

namespace Ratio

def toRat (a : Ratio) : ℚ := a.num / a.den

variable {a b : Ratio}

theorem toRat_scale (a : Ratio) {base : Nat} (positive : 0 < base) (exponent : Int) :
    (a.scale base exponent).toRat = a.toRat * (base : ℚ) ^ exponent := by
  have nonzero : (base : ℚ) ≠ 0 := by positivity
  have split : (base : ℚ) ^ exponent =
      (base : ℚ) ^ exponent.toNat / (base : ℚ) ^ (-exponent).toNat := by
    rw [← zpow_natCast, ← zpow_natCast, ← zpow_sub₀ nonzero]
    congr 1
    omega
  simp only [toRat, scale, Nat.pow_eq, Nat.cast_mul, Nat.cast_pow, split]
  ring

theorem den_scale (positive : 0 < a.den) {base : Nat} (some : 0 < base) (exponent : Int) :
    0 < (a.scale base exponent).den :=
  Nat.mul_pos positive (Nat.pow_pos some)

theorem le_iff (left : 0 < a.den) (right : 0 < b.den) : a.le b = true ↔ a.toRat ≤ b.toRat := by
  have left : (0 : ℚ) < a.den := by exact_mod_cast left
  have right : (0 : ℚ) < b.den := by exact_mod_cast right
  rw [toRat, toRat, div_le_div_iff₀ left right, le, decide_eq_true_eq]
  exact_mod_cast Iff.rfl

theorem lt_iff (left : 0 < a.den) (right : 0 < b.den) : a.lt b = true ↔ a.toRat < b.toRat := by
  have left : (0 : ℚ) < a.den := by exact_mod_cast left
  have right : (0 : ℚ) < b.den := by exact_mod_cast right
  rw [toRat, toRat, div_lt_div_iff₀ left right, lt, decide_eq_true_eq]
  exact_mod_cast Iff.rfl

theorem floor_eq (a : Ratio) : a.floor = ⌊a.toRat⌋₊ := (Nat.floor_div_eq_div a.num a.den).symm

end Ratio

def Finite.value (f : Finite) : ℚ := f.digits * 10 ^ f.exponent

namespace Dyadic

variable (d : Dyadic)

-- The ends of the interval of what rounds to `d`: half a step up, and half a step down unless the
-- number below is only half a step away.
def low : ℚ := (4 * d.mantissa - if d.narrow then 1 else 2) * 2 ^ (d.exponent - 2)

def high : ℚ := (4 * d.mantissa + 2) * 2 ^ (d.exponent - 2)

def Near (q : ℚ) : Prop :=
  if d.mantissa % 2 = 0 then d.low ≤ q ∧ q ≤ d.high else d.low < q ∧ q < d.high

structure Double (d : Dyadic) : Prop where
  positive : 0 < d.mantissa
  below : d.mantissa < 2 ^ 53
  lowest : -1074 ≤ d.exponent
  highest : d.exponent ≤ 971
  normal : 2 ^ 52 ≤ d.mantissa ∨ d.exponent = -1074
  narrow : d.narrow = true ↔ d.mantissa = 2 ^ 52 ∧ -1074 < d.exponent

theorem toRat_value : d.value.toRat = d.mantissa * 2 ^ d.exponent := by
  rw [value, Ratio.toRat_scale _ (by decide)]
  simp [Ratio.toRat]

variable {d}

theorem accepts_iff (positive : 0 < d.mantissa) {x : Ratio} (proper : 0 < x.den) :
    d.accepts x = true ↔ d.Near x.toRat := by
  have lower : ((Ratio.mk (4 * d.mantissa - if d.narrow then 1 else 2) 1).scale 2
      (d.exponent - 2)).toRat = d.low := by
    rw [Ratio.toRat_scale _ (by decide), low, Ratio.toRat]
    push_cast [Nat.cast_sub (by split <;> omega : (if d.narrow then 1 else 2) ≤ 4 * d.mantissa)]
    simp
  have upper : ((Ratio.mk (4 * d.mantissa + 2) 1).scale 2 (d.exponent - 2)).toRat = d.high := by
    rw [Ratio.toRat_scale _ (by decide), high, Ratio.toRat]
    push_cast
    simp
  have one {n : Nat} : 0 < (Ratio.mk n 1).den := Nat.one_pos
  have dens {n : Nat} := Ratio.den_scale (one (n := n)) Nat.two_pos (d.exponent - 2)
  simp only [accepts, Near]
  by_cases even : d.mantissa % 2 = 0
  · rw [if_pos even, if_pos even, Bool.and_eq_true, Ratio.le_iff dens proper,
      Ratio.le_iff proper dens, lower, upper]
  · rw [if_neg even, if_neg even, Bool.and_eq_true, Ratio.lt_iff dens proper,
      Ratio.lt_iff proper dens, lower, upper]

end Dyadic

theorem finite_congr {s : Float.Model.UnpackedFloat.Sign} {m n : Nat} {e f : Int}
    {positive : 0 < m} (also : 0 < n) (mantissa : m = n) (exponent : e = f) :
    (Float.Model.UnpackedFloat.finite s m e positive) = .finite s n f also := by
  subst mantissa exponent
  rfl

end BulkSync.Decimal
