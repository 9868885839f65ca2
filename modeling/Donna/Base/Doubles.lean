import Mathlib.Data.Int.Log
import Mathlib.Data.Rat.Floor

/-! Rounding to double precision: the multiple of the last binary place of a number that is nearest
to it, and of two that are equally near the even one.  Exponents are unbounded above. -/

namespace Donna.Doubles

/-- The exponent of the last of the 53 places of a number, where the subnormal numbers end. -/
def lastPlace (q : ℚ) : ℤ := max (Int.log 2 |q| - 52) (-1074)

/-- The nearest integer, and of two the even one. -/
def roundEven (q : ℚ) : ℤ :=
  if Int.fract q < 1 / 2 ∨ Int.fract q = 1 / 2 ∧ ⌊q⌋ % 2 = 0 then ⌊q⌋ else ⌊q⌋ + 1

/-- The nearest double. -/
def nearest (q : ℚ) : ℚ := roundEven (q / 2 ^ lastPlace q) * 2 ^ lastPlace q

theorem roundEven_nonneg {q : ℚ} (nonneg : 0 ≤ q) : 0 ≤ roundEven q := by
  have floor : 0 ≤ ⌊q⌋ := Int.floor_nonneg.mpr nonneg
  unfold roundEven
  split
  · exact floor
  · omega

theorem roundEven_le {q : ℚ} {n : ℤ} (below : q ≤ n) : roundEven q ≤ n := by
  unfold roundEven
  split
  · exact Int.floor_le_iff.mpr (below.trans_lt (lt_add_one _))
  · next up =>
    -- A number that is rounded up lies strictly below the next integer.
    refine Int.add_one_le_iff.mpr (Int.floor_lt.mpr (lt_of_le_of_ne below ?_))
    rintro rfl
    exact up (.inl (by simp))

theorem nearest_nonneg {q : ℚ} (nonneg : 0 ≤ q) : 0 ≤ nearest q := by
  have place : (0 : ℚ) < 2 ^ lastPlace q := zpow_pos two_pos _
  have rounded : (0 : ℚ) ≤ roundEven (q / 2 ^ lastPlace q) :=
    Int.cast_nonneg (roundEven_nonneg (div_nonneg nonneg place.le))
  exact mul_nonneg rounded place.le

/-- The places of a number below `2 ^ 53` reach down to the units. -/
theorem lastPlace_nonpos {q : ℚ} (nonneg : 0 ≤ q) (small : q < 2 ^ 53) : lastPlace q ≤ 0 := by
  have log : Int.log 2 |q| ≤ 52 := by
    rw [abs_of_nonneg nonneg]
    rcases nonneg.eq_or_lt with rfl | positive
    · simp
    · have below : q < ((2 : ℕ) : ℚ) ^ (53 : ℤ) := by exact_mod_cast small
      exact Int.lt_add_one_iff.mp ((Int.lt_zpow_iff_log_lt one_lt_two positive).mp below)
  unfold lastPlace
  omega

/-- A number up to a natural number that is a double is not rounded above it. -/
theorem nearest_le_natCast {q : ℚ} {n : ℕ} (small : n < 2 ^ 53) (nonneg : 0 ≤ q) (below : q ≤ n) :
    nearest q ≤ n := by
  have bound : q < 2 ^ 53 := below.trans_lt (by exact_mod_cast small)
  obtain ⟨k, hk⟩ := Int.exists_eq_neg_ofNat (lastPlace_nonpos nonneg bound)
  have unit : (2 : ℚ) ^ k * 2 ^ lastPlace q = 1 := by
    rw [hk, zpow_neg, zpow_natCast, mul_inv_cancel₀ (by positivity)]
  have positive : (0 : ℚ) < 2 ^ lastPlace q := zpow_pos two_pos _
  have multiple : (n : ℚ) = ((n * 2 ^ k : ℕ) : ℤ) * 2 ^ lastPlace q := by
    push_cast
    rw [mul_assoc, unit, mul_one]
  have within : q / 2 ^ lastPlace q ≤ ((n * 2 ^ k : ℕ) : ℤ) := by
    rw [div_le_iff₀ positive, ← multiple]
    exact below
  rw [multiple]
  exact mul_le_mul_of_nonneg_right (Int.cast_le.mpr (roundEven_le within)) positive.le

end Donna.Doubles
