import OverloadTables.Json.Basic
import Mathlib.Algebra.Order.Field.Power
import Mathlib.Data.Rat.Cast.Order

/-!
# Decimals that equal zero

A decimal equals zero in double precision if it lies no further from zero than half the least
positive double.  The test by the count of digits and the size is exact.

* `Decimal.RoundsToZero`   the condition, in rational numbers;
* `lt_zpow_size`, `zpow_size_le`   a decimal lies between two powers of ten;
* `Decimal.isZero_iff`     the test decides the condition.
-/

namespace OverloadTables.Decimal

/-- Half the least positive double is two to the power of minus this. -/
def halfLeast : ℕ := 1075

/-- The decimal lies no further from zero than half the least positive double. -/
def RoundsToZero : Decimal → Prop
  | .finite _ digits exponent => (digits : ℚ) * 10 ^ exponent ≤ 2 ^ (-halfLeast : ℤ)
  | _ => False

/-! ## bounds -/

theorem zpow_neg_le {a b : ℕ} (h : 2 ^ a ≤ 10 ^ b) :
    (10 : ℚ) ^ (-(b : ℤ)) ≤ 2 ^ (-(a : ℤ)) := by
  have hpow : (2 : ℚ) ^ a ≤ 10 ^ b := by exact_mod_cast h
  rw [zpow_neg, zpow_neg, zpow_natCast, zpow_natCast]
  exact inv_anti₀ (pow_pos two_pos a) hpow

theorem zpow_neg_lt {a b : ℕ} (h : 10 ^ b < 2 ^ a) :
    (2 : ℚ) ^ (-(a : ℤ)) < 10 ^ (-(b : ℤ)) := by
  have hpow : (10 : ℚ) ^ b < 2 ^ a := by exact_mod_cast h
  rw [zpow_neg, zpow_neg, zpow_natCast, zpow_natCast]
  exact inv_strictAnti₀ (pow_pos (by norm_num) b) hpow

/-- A decimal with a negative exponent against a power of two. -/
theorem mul_zpow_le (digits a b : ℕ) :
    digits * Nat.pow 2 a ≤ Nat.pow 10 b ↔ (digits : ℚ) * 10 ^ (-(b : ℤ)) ≤ 2 ^ (-(a : ℤ)) := by
  have htwo : (0 : ℚ) < 2 ^ a := pow_pos two_pos a
  have hten : (0 : ℚ) < 10 ^ b := pow_pos (by norm_num) b
  rw [zpow_neg, zpow_neg, zpow_natCast, zpow_natCast, ← div_eq_mul_inv, ← one_div,
    div_le_div_iff₀ hten htwo, one_mul, Nat.pow_eq, Nat.pow_eq]
  exact_mod_cast Iff.rfl

section
variable {digits : ℕ} (hpos : digits ≠ 0) (exponent : ℤ)

/-- A decimal is below the power of ten that its size names. -/
theorem lt_zpow_size :
    (digits : ℚ) * 10 ^ exponent < 10 ^ (exponent + (Nat.toDigits 10 digits).length) := by
  have hdigits : digits < 10 ^ (Nat.toDigits 10 digits).length :=
    (Nat.length_toDigits_le_iff (by decide) Nat.length_toDigits_pos).mp (Nat.le_refl _)
  have hcast : (digits : ℚ) < 10 ^ (Nat.toDigits 10 digits).length := by exact_mod_cast hdigits
  rw [zpow_add₀ (by norm_num), zpow_natCast, mul_comm]
  exact mul_lt_mul_of_pos_left hcast (zpow_pos (by norm_num) exponent)

include hpos in
/-- A decimal that is not zero is no less than the power of ten below. -/
theorem zpow_size_le :
    (10 : ℚ) ^ (exponent + (Nat.toDigits 10 digits).length - 1) ≤ digits * 10 ^ exponent := by
  obtain ⟨k, hk⟩ : ∃ k, (Nat.toDigits 10 digits).length = k + 1 :=
    Nat.exists_eq_succ_of_ne_zero (Nat.ne_of_gt Nat.length_toDigits_pos)
  have hdigits : 10 ^ k ≤ digits := by
    rcases Nat.eq_zero_or_pos k with rfl | hkpos
    · exact Nat.one_le_iff_ne_zero.mpr hpos
    · refine Nat.not_lt.mp fun hlt => ?_
      have hle := (Nat.length_toDigits_le_iff (by decide) hkpos).mpr hlt
      omega
  have hcast : (10 : ℚ) ^ k ≤ digits := by exact_mod_cast hdigits
  have hexp : exponent + ((k + 1 : ℕ) : ℤ) - 1 = exponent + k := by omega
  rw [hk, hexp, zpow_add₀ (by norm_num), zpow_natCast, mul_comm]
  exact mul_le_mul_of_nonneg_right hcast (zpow_nonneg (by norm_num) exponent)

end

/-! ## the test -/

section
variable {negative : Bool} {digits : ℕ} {exponent : ℤ} (hpos : digits ≠ 0)
include hpos

/-- The exponent of the bound stays a name here, so that no power of it is computed. -/
theorem isZero_finite {b : ℕ} (hb : b = 1075) : isZero (.finite negative digits exponent)
    = if exponent + (Nat.toDigits 10 digits).length < -323 then true
      else if exponent + (Nat.toDigits 10 digits).length > -323 then false
      else decide (digits * Nat.pow 2 b ≤ Nat.pow 10 exponent.natAbs) := by
  have h := isZero.eq_2 negative digits exponent hpos
  simp only [← hb] at h
  exact h

theorem isZero_finite_iff : isZero (.finite negative digits exponent) = true ↔
    (digits : ℚ) * 10 ^ exponent ≤ 2 ^ (-halfLeast : ℤ) := by
  have hb : halfLeast = 1075 := rfl
  rw [isZero_finite hpos hb]
  rcases lt_trichotomy (exponent + (Nat.toDigits 10 digits).length) (-323) with hlt | heq | hgt
  · -- less than the power of ten that is below the bound
    rw [if_pos hlt]
    refine iff_of_true rfl ((lt_zpow_size exponent).le.trans ?_)
    have hsize : exponent + (Nat.toDigits 10 digits).length ≤ -(324 : ℕ) := by omega
    exact (zpow_le_zpow_right₀ (by norm_num) hsize).trans (zpow_neg_le (by decide +kernel))
  · -- of the magnitude of the bound
    have hneg : -(exponent.natAbs : ℤ) = exponent := by omega
    rw [if_neg (by omega), if_neg (by omega), decide_eq_true_eq, mul_zpow_le, hneg]
  · -- no less than the power of ten that is above the bound
    rw [if_neg (by omega), if_pos hgt]
    refine iff_of_false Bool.false_ne_true (not_le.mpr ?_)
    have hsize : -(323 : ℕ) ≤ exponent + (Nat.toDigits 10 digits).length - 1 := by omega
    refine (zpow_neg_lt (a := halfLeast) (b := 323) (by decide +kernel)).trans_le ?_
    exact (zpow_le_zpow_right₀ (by norm_num) hsize).trans (zpow_size_le hpos exponent)

end

/-- **The test finds the decimals that equal zero.** -/
theorem isZero_iff (x : Decimal) : x.isZero = true ↔ x.RoundsToZero := by
  cases x with
  | finite negative digits exponent =>
    by_cases hpos : digits = 0
    · subst hpos
      refine iff_of_true rfl ?_
      rw [RoundsToZero, Nat.cast_zero, zero_mul]
      exact zpow_nonneg two_pos.le _
    · exact isZero_finite_iff hpos
  | infinite negative => exact iff_of_false Bool.false_ne_true id
  | nan => exact iff_of_false Bool.false_ne_true id

end OverloadTables.Decimal
