import Mathlib.Algebra.Order.Field.Power
import Mathlib.Data.Rat.Cast.Order
import Mathlib.Tactic.NormNum
import Mathlib.Tactic.Ring
import RunTrace.Proofs.Decimal.Digits

/-!
# The value of a decimal number

Two decimal numbers can have the same value with different coefficients. Reducing takes each to
the one with the smallest coefficient, so the nearest double depends on the value alone.

## Main results

* `value_reduced`: reducing keeps the value;
* `reduced_eq_of_value_eq`: numbers of the same value are reduced to the same number;
* `toFloat_eq_of_value_eq`: numbers of the same value have the same nearest double.
-/

namespace RunTrace.Decimal

/-- The number that a decimal number is. -/
def value (d : Decimal) : ℚ :=
  d.coefficient * 10 ^ d.exponent

theorem value_eq_zero_iff {d : Decimal} : d.value = 0 ↔ d.coefficient = 0 := by
  rw [value, mul_eq_zero_iff_right (zpow_ne_zero _ (by norm_num)), Nat.cast_eq_zero]

theorem reduced_of_coefficient_eq_zero {d : Decimal} (h : d.coefficient = 0) :
    d.reduced = ⟨0, 0⟩ := by
  obtain ⟨_, exponent⟩ := d
  obtain rfl := h
  have hdigits := significantDigits_zero exponent
  have hzero : natOfDigits ['0'] = 0 := natOfDigits_replicate_zero 1
  simp [reduced, hdigits, leadingExponent, hzero]

/-- Reducing moves factors of ten from the coefficient to the power of ten. -/
theorem exists_reduced {d : Decimal} (h : d.coefficient ≠ 0) :
    ∃ zeros : ℕ, d.reduced.exponent = d.exponent + zeros ∧
      d.coefficient = d.reduced.coefficient * 10 ^ zeros := by
  obtain ⟨-, -, zeros, -, -, hdigits⟩ := exists_significantDigits h
  refine ⟨zeros, ?_, ?_⟩
  -- The exponent grows by the number of zeros that the coefficient loses.
  · rw [reduced, leadingExponent, if_neg h, hdigits, List.length_append, List.length_replicate]
    push_cast
    ring
  · rw [reduced, ← natOfDigits_append_zeros, ← hdigits, natOfDigits_digits]

@[simp]
theorem value_reduced (d : Decimal) : d.reduced.value = d.value := by
  by_cases hzero : d.coefficient = 0
  · rw [reduced_of_coefficient_eq_zero hzero, value_eq_zero_iff.2 hzero, value_eq_zero_iff]
  · obtain ⟨zeros, hexponent, hcoefficient⟩ := exists_reduced hzero
    rw [value, value, hexponent, hcoefficient, zpow_add₀ (by norm_num), zpow_natCast]
    push_cast
    ring

/-- A reduced coefficient has no factor of ten. -/
theorem reduced_coefficient_mod {d : Decimal} (h : d.coefficient ≠ 0) :
    d.reduced.coefficient % 10 ≠ 0 :=
  natOfDigits_significantDigits_mod h

/-- Of two numbers with the same value, one with a smaller power of ten has a coefficient with a
factor of ten. -/
theorem coefficient_mod_of_exponent_lt {d e : Decimal} (h : d.value = e.value)
    (hlt : d.exponent < e.exponent) : d.coefficient % 10 = 0 := by
  obtain ⟨k, hk⟩ : ∃ k : ℕ, e.exponent = d.exponent + (k + 1 : ℕ) :=
    ⟨(e.exponent - d.exponent - 1).toNat, by omega⟩
  have hten : (10 : ℚ) ^ d.exponent ≠ 0 := zpow_ne_zero _ (by norm_num)
  -- The coefficients differ by the power of ten by which the exponents differ.
  have hcast : (d.coefficient : ℚ) = ((e.coefficient * 10 ^ (k + 1) : ℕ) : ℚ) := by
    refine mul_right_cancel₀ hten ?_
    rw [← value, h, value, hk, zpow_add₀ (by norm_num), zpow_natCast]
    push_cast
    ring
  rw [Nat.cast_inj.1 hcast, pow_succ, ← mul_assoc, Nat.mul_mod_left]

/-- Numbers of the same value are reduced to the same number. -/
theorem reduced_eq_of_value_eq {d e : Decimal} (h : d.value = e.value) :
    d.reduced = e.reduced := by
  by_cases hzero : d.coefficient = 0
  · have : e.coefficient = 0 := by rw [← value_eq_zero_iff, ← h, value_eq_zero_iff, hzero]
    rw [reduced_of_coefficient_eq_zero hzero, reduced_of_coefficient_eq_zero this]
  · have hzero' : e.coefficient ≠ 0 := by rwa [ne_eq, ← value_eq_zero_iff, ← h, value_eq_zero_iff]
    have hvalue : d.reduced.value = e.reduced.value := by rw [value_reduced, value_reduced, h]
    -- The coefficient that goes with the smaller exponent would have a factor of ten.
    have hexponent : d.reduced.exponent = e.reduced.exponent := by
      rcases lt_trichotomy d.reduced.exponent e.reduced.exponent with hlt | heq | hgt
      · exact absurd (coefficient_mod_of_exponent_lt hvalue hlt) (reduced_coefficient_mod hzero)
      · exact heq
      · exact absurd (coefficient_mod_of_exponent_lt hvalue.symm hgt)
          (reduced_coefficient_mod hzero')
    have hcoefficient : d.reduced.coefficient = e.reduced.coefficient := by
      rw [value, value, hexponent] at hvalue
      exact Nat.cast_inj.1 (mul_right_cancel₀ (zpow_ne_zero _ (by norm_num)) hvalue)
    cases hd : d.reduced
    cases he : e.reduced
    simp_all

/-- Numbers of the same value have the same nearest double. -/
theorem toFloat_eq_of_value_eq {d e : Decimal} (h : d.value = e.value) :
    d.toFloat = e.toFloat := by
  rw [toFloat, toFloat, reduced_eq_of_value_eq h]

end RunTrace.Decimal
