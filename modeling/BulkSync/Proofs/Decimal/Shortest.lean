import BulkSync.Proofs.Decimal.Reading

set_option autoImplicit false

namespace BulkSync.Decimal

theorem lt_pow_length (n : Nat) : n < 10 ^ (Nat.toDigits 10 n).length :=
  (Nat.length_toDigits_le_iff (by decide) Nat.length_toDigits_pos).1 le_rfl

theorem pow_length_le {n : Nat} (positive : 0 < n) :
    10 ^ ((Nat.toDigits 10 n).length - 1) ≤ n := by
  have some := Nat.length_toDigits_pos (b := 10) (n := n)
  by_cases one : (Nat.toDigits 10 n).length = 1
  · rw [one]
    exact positive
  · refine not_lt.1 fun less => ?_
    have shorter := (Nat.length_toDigits_le_iff (by decide) (by omega)).2 less
    omega

namespace Dyadic

variable (d : Dyadic)

theorem floor_scale (exponent : Int) :
    (d.value.scale 10 exponent).floor = ⌊(d.mantissa * 2 ^ d.exponent * 10 ^ exponent : ℚ)⌋₊ := by
  rw [Ratio.floor_eq, Ratio.toRat_scale _ (by decide), toRat_value, Nat.cast_ofNat]

theorem value_lt_magnitude : (d.mantissa * 2 ^ d.exponent : ℚ) < 10 ^ d.magnitude := by
  have digits := lt_pow_length (d.value.scale 10 shift).floor
  rw [floor_scale, Nat.floor_lt (by positivity)] at digits
  rw [magnitude, zpow_sub₀ (by norm_num), lt_div_iff₀ (by positivity), floor_scale]
  exact_mod_cast digits

theorem magnitude_le_value (large : 10 ^ (-400 : Int) ≤ (d.mantissa * 2 ^ d.exponent : ℚ)) :
    10 ^ (d.magnitude - 1) ≤ (d.mantissa * 2 ^ d.exponent : ℚ) := by
  have unit : (0 : ℚ) < 10 ^ (shift : Int) := by positivity
  have positive : 0 < (d.value.scale 10 shift).floor := by
    rw [floor_scale, Nat.floor_pos, ← div_le_iff₀ unit]
    exact (le_of_eq (by norm_num [shift])).trans large
  have digits := pow_length_le positive
  have some := Nat.length_toDigits_pos (b := 10) (n := (d.value.scale 10 shift).floor)
  rw [magnitude]
  generalize (Nat.toDigits 10 (d.value.scale 10 shift).floor).length = length at digits some ⊢
  rw [floor_scale, Nat.le_floor_iff (by positivity), ← div_le_iff₀ unit] at digits
  have exponent : (length : Int) - shift - 1 = (length - 1 : Nat) - shift := by omega
  rw [exponent, zpow_sub₀ (by norm_num), zpow_natCast]
  exact_mod_cast digits

end Dyadic

section Neighbour

variable {d : Dyadic} {tie : Tie} {exponent : Int} {f : Finite}

theorem accepts_iff_near (positive : 0 < d.mantissa) (digits : Nat) :
    d.accepts ((Ratio.mk digits 1).scale 10 exponent) = true ↔
      d.Near (Finite.value ⟨digits, exponent⟩) := by
  rw [Dyadic.accepts_iff positive (Ratio.den_scale Nat.one_pos (by decide) _),
    Ratio.toRat_scale _ (by decide)]
  simp [Ratio.toRat, Finite.value]

-- Both neighbours on a grid are tried, and what is chosen is one that reads back.
theorem nearest?_eq_some (positive : 0 < d.mantissa) (chosen : d.nearest? tie exponent = some f) :
    d.Near f.value ∧ f.exponent = exponent ∧
      f.digits ≤ ⌊(d.mantissa * 2 ^ d.exponent * 10 ^ (-exponent) : ℚ)⌋₊ + 1 := by
  rw [← Dyadic.floor_scale]
  simp only [Dyadic.nearest?] at chosen
  generalize (d.value.scale 10 (-exponent)).floor = below at chosen ⊢
  split at chosen
  next reads next =>
    rw [accepts_iff_near positive] at reads next
    have picked : f = ⟨below + 1, exponent⟩ ∨ f = ⟨below, exponent⟩ := by
      cases tie <;> dsimp only at chosen <;> split at chosen <;> cases chosen <;> simp
    obtain rfl | rfl := picked
    · exact ⟨next, rfl, le_rfl⟩
    · exact ⟨reads, rfl, Nat.le_succ below⟩
  next reads _ =>
    rw [accepts_iff_near positive] at reads
    cases chosen
    exact ⟨reads, rfl, Nat.le_succ below⟩
  next _ reads =>
    rw [accepts_iff_near positive] at reads
    cases chosen
    exact ⟨reads, rfl, le_rfl⟩
  next => cases chosen

theorem nearest?_isSome (positive : 0 < d.mantissa) {digits : Nat}
    (neighbour : digits = ⌊(d.mantissa * 2 ^ d.exponent * 10 ^ (-exponent) : ℚ)⌋₊ ∨
      digits = ⌊(d.mantissa * 2 ^ d.exponent * 10 ^ (-exponent) : ℚ)⌋₊ + 1)
    (near : d.Near (Finite.value ⟨digits, exponent⟩)) : (d.nearest? tie exponent).isSome := by
  rw [← Dyadic.floor_scale] at neighbour
  rw [← accepts_iff_near positive] at near
  simp only [Dyadic.nearest?]
  obtain rfl | rfl := neighbour
  · rw [near]
    split
    case h_1 | h_2 => rfl
    case h_3 no _ | h_4 no _ => cases no
  · rw [near]
    split
    case h_1 | h_3 => rfl
    case h_2 _ no | h_4 _ no => cases no

end Neighbour

section Grid

theorem two_zpow_le {n : Int} (small : n ≤ 3 * 400) : (2 : ℚ) ^ n ≤ 10 ^ (400 : Int) := calc
  (2 : ℚ) ^ n ≤ 2 ^ (3 * 400 : Int) := zpow_le_zpow_right₀ one_le_two small
  _ = (2 ^ (3 : Int)) ^ (400 : Int) := zpow_mul 2 3 400
  _ ≤ 10 ^ (400 : Int) := zpow_le_zpow_left₀ (by decide) (by norm_num) (by norm_num)

variable {d : Dyadic} (double : d.Double)
include double

theorem least_le_value : 10 ^ (-400 : Int) ≤ (d.mantissa * 2 ^ d.exponent : ℚ) := by
  have some : (1 : ℚ) ≤ d.mantissa := by exact_mod_cast double.positive
  calc (10 : ℚ) ^ (-400 : Int) ≤ 2 ^ (-1074 : Int) := by
        rw [zpow_neg, zpow_neg]
        exact inv_anti₀ (by positivity) (two_zpow_le (by decide))
    _ ≤ 2 ^ d.exponent := zpow_le_zpow_right₀ one_le_two double.lowest
    _ ≤ d.mantissa * 2 ^ d.exponent := le_mul_of_one_le_left (by positivity) some

-- A step of the grid of seventeen digits, counted in steps of the binary grid.
theorem seventeen_fine : 10 ^ 16 * (10 ^ (d.magnitude - 17) / 2 ^ d.exponent : ℚ) ≤ d.mantissa := by
  have unit : (0 : ℚ) < 2 ^ d.exponent := by positivity
  have split : (10 : ℚ) ^ (d.magnitude - 1) = 10 ^ 16 * 10 ^ (d.magnitude - 17) := by
    rw [show d.magnitude - 1 = 16 + (d.magnitude - 17) by omega, zpow_add₀ (by norm_num)]
    norm_num
  rw [← mul_div_assoc, div_le_iff₀ unit, ← split]
  exact d.magnitude_le_value (least_le_value double)

-- Steps are so small that one of two neighbours is in the interval, the upper one if it is narrow.
theorem near_of_fine {step below : ℚ} (fine : 10 ^ 16 * step ≤ d.mantissa)
    (lower : below ≤ d.mantissa) (upper : d.mantissa < below + step) {p q : ℚ}
    (first : p / 2 ^ d.exponent = below) (next : q / 2 ^ d.exponent = below + step) :
    d.Near p ∨ d.Near q := by
  have mantissa : (d.mantissa : ℚ) < 2 ^ 53 := by exact_mod_cast double.below
  by_cases narrow : d.narrow
  · have lowest : (d.mantissa : ℚ) = 2 ^ 52 := by exact_mod_cast (double.narrow.1 narrow).1
    refine .inr (near_of_lt ?_ ?_)
    · rw [next, if_pos narrow]
      linarith
    · rw [next]
      linarith
  · by_cases closer : d.mantissa - below ≤ step / 2
    · refine .inl (near_of_lt ?_ ?_)
      · rw [first, if_neg narrow]
        linarith
      · rw [first]
        linarith
    · refine .inr (near_of_lt ?_ ?_)
      · rw [next, if_neg narrow]
        linarith
      · rw [next]
        linarith

theorem nearest?_seventeen (tie : Tie) : (d.nearest? tie (d.magnitude - 17)).isSome := by
  have fine := seventeen_fine double
  obtain ⟨below, floor⟩ : ∃ n : Nat,
      n = ⌊(d.mantissa * 2 ^ d.exponent * 10 ^ (-(d.magnitude - 17)) : ℚ)⌋₊ := ⟨_, rfl⟩
  obtain ⟨step, step_eq⟩ : ∃ step : ℚ, step = 10 ^ (d.magnitude - 17) / 2 ^ d.exponent := ⟨_, rfl⟩
  have positive : 0 < step := by
    rw [step_eq]
    positivity
  have steps : (d.mantissa * 2 ^ d.exponent * 10 ^ (-(d.magnitude - 17)) : ℚ) * step =
      d.mantissa := by
    rw [step_eq, zpow_neg]
    field_simp
  have lower : below * step ≤ d.mantissa := by
    rw [← steps, floor]
    exact mul_le_mul_of_nonneg_right (Nat.floor_le (by positivity)) positive.le
  have upper : d.mantissa < below * step + step := calc
    (d.mantissa : ℚ) = _ * step := steps.symm
    _ < (below + 1) * step := by
      rw [floor]
      exact mul_lt_mul_of_pos_right (Nat.lt_floor_add_one _) positive
    _ = below * step + step := by ring
  have value (n : Nat) : Finite.value ⟨n, d.magnitude - 17⟩ / 2 ^ d.exponent = n * step := by
    rw [Finite.value, step_eq, mul_div_assoc]
  have next :
      Finite.value ⟨below + 1, d.magnitude - 17⟩ / 2 ^ d.exponent = below * step + step := by
    rw [value]
    push_cast
    ring
  rw [← step_eq] at fine
  obtain near | near := near_of_fine double fine lower upper (value below) next
  · exact nearest?_isSome double.positive (.inl floor) near
  · exact nearest?_isSome double.positive (.inr (congrArg (· + 1) floor)) near

end Grid

section Trim

theorem value_trim (fuel : Nat) (f : Finite) : (f.trim fuel).value = f.value := by
  induction fuel generalizing f with
  | zero => rfl
  | succ fuel ih =>
    rw [Finite.trim]
    split
    next zeros =>
      obtain ⟨k, digits⟩ : ∃ k, f.digits = k * 10 := ⟨f.digits / 10, by omega⟩
      rw [ih, Finite.value, Finite.value, digits, Nat.mul_div_cancel _ (by decide),
        zpow_add_one₀ (by norm_num)]
      push_cast
      ring
    next => rfl

theorem digits_trim (fuel : Nat) (f : Finite) : (f.trim fuel).digits ≤ f.digits := by
  induction fuel generalizing f with
  | zero => rfl
  | succ fuel ih =>
    rw [Finite.trim]
    split
    next => exact (ih _).trans (Nat.div_le_self _ _)
    next => rfl

end Trim

-- A decimal that reads back as the double.
structure Legible (d : Dyadic) (f : Finite) : Prop where
  near : d.Near f.value
  positive : 0 < f.digits
  digits : f.digits ≤ 10 ^ 17

variable {d : Dyadic}

theorem digits_pos_of_near (double : d.Double) {f : Finite} (near : d.Near f.value) :
    0 < f.digits := by
  refine Nat.pos_of_ne_zero fun none => ?_
  have least := (bounds_of_near double near).1
  rw [Finite.value, none, Nat.cast_zero, zero_mul] at least
  have : (0 : ℚ) < 2 ^ (-1075 : Int) := by positivity
  linarith

theorem legible_shortest (double : d.Double) (tie : Tie) : Legible d (d.shortest tie) := by
  obtain ⟨f, chosen⟩ : ∃ f, ((List.range 17).map fun n =>
      d.magnitude - (n + 1 : Nat)).findSome? (d.nearest? tie) = some f := by
    rw [← Option.isSome_iff_exists, List.findSome?_isSome_iff]
    exact ⟨d.magnitude - 17, List.mem_map.2 ⟨16, by simp, rfl⟩, nearest?_seventeen double tie⟩
  have shortest : d.shortest tie = f.trim 17 := by
    simp only [Dyadic.shortest, chosen]
  obtain ⟨exponent, among, found⟩ := List.exists_of_findSome?_eq_some chosen
  obtain ⟨n, within, rfl⟩ := List.mem_map.1 among
  obtain ⟨near, -, digits⟩ := nearest?_eq_some double.positive found
  have below : ⌊(d.mantissa * 2 ^ d.exponent * 10 ^ (-(d.magnitude - (n + 1 : Nat))) : ℚ)⌋₊ <
      10 ^ (n + 1) := by
    have grid : (0 : ℚ) < 10 ^ (d.magnitude - (n + 1 : Nat)) := by positivity
    rw [Nat.floor_lt (by positivity), zpow_neg, ← div_eq_mul_inv, div_lt_iff₀ grid,
      Nat.cast_pow, ← zpow_natCast, Nat.cast_ofNat, ← zpow_add₀ (by norm_num),
      add_sub_cancel]
    exact d.value_lt_magnitude
  have small : 10 ^ (n + 1) ≤ 10 ^ 17 := Nat.pow_le_pow_right (by decide) (List.mem_range.1 within)
  rw [← value_trim 17] at near
  rw [shortest]
  exact ⟨near, digits_pos_of_near double near, by have := digits_trim 17 f; omega⟩

-- Not even the first digit of such a decimal is far from the point.
theorem magnitude_of_near (double : d.Double) {m : Nat} {e : Int} (positive : 0 < m)
    (near : d.Near (m * 10 ^ e)) :
    -400 < (Nat.toDigits 10 m).length + e ∧ (Nat.toDigits 10 m).length + e ≤ 400 := by
  obtain ⟨least, below⟩ := bounds_of_near double near
  have some := Nat.length_toDigits_pos (b := 10) (n := m)
  have digits := lt_pow_length m
  have first := pow_length_le positive
  generalize (Nat.toDigits 10 m).length = length at digits first some ⊢
  have digits : (m : ℚ) < 10 ^ (length : Int) := by exact_mod_cast digits
  have first : (10 : ℚ) ^ (length - 1 : Int) ≤ m := by
    rw [show (length - 1 : Int) = (length - 1 : Nat) by omega]
    exact_mod_cast first
  have unit : (0 : ℚ) < 10 ^ e := by positivity
  constructor
  · have lower : (10 : ℚ) ^ (-400 : Int) < 10 ^ (length + e) := calc
      (10 : ℚ) ^ (-400 : Int) ≤ 2 ^ (-1075 : Int) := by
        rw [zpow_neg, zpow_neg]
        exact inv_anti₀ (by positivity) (two_zpow_le (by decide))
      _ ≤ m * 10 ^ e := least
      _ < 10 ^ (length : Int) * 10 ^ e := mul_lt_mul_of_pos_right digits unit
      _ = 10 ^ (length + e) := (zpow_add₀ (by norm_num) _ _).symm
    rwa [zpow_lt_zpow_iff_right₀ (by norm_num)] at lower
  · have upper : (10 : ℚ) ^ (length - 1 + e) < 10 ^ (400 : Int) := calc
      (10 : ℚ) ^ (length - 1 + e) = 10 ^ (length - 1 : Int) * 10 ^ e := zpow_add₀ (by norm_num) _ _
      _ ≤ m * 10 ^ e := mul_le_mul_of_nonneg_right first unit.le
      _ < 2 ^ (1025 : Int) := below
      _ ≤ 10 ^ (400 : Int) := two_zpow_le (by decide)
    rw [zpow_lt_zpow_iff_right₀ (by norm_num)] at upper
    omega

theorem Legible.length_digits {f : Finite} (legible : Legible d f) :
    (Nat.toDigits 10 f.digits).length ≤ 18 := by
  rw [Nat.length_toDigits_le_iff (by decide) (by decide)]
  exact legible.digits.trans_lt (by decide)

theorem Legible.exponent {f : Finite} (double : d.Double) (legible : Legible d f) :
    -417 ≤ f.exponent ∧ f.exponent < 400 := by
  have magnitude := magnitude_of_near double legible.positive legible.near
  have most := legible.length_digits
  have some := Nat.length_toDigits_pos (b := 10) (n := f.digits)
  omega

end BulkSync.Decimal
