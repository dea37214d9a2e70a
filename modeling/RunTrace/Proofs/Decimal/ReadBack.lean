import RunTrace.Decimal.Shortest
import RunTrace.Proofs.Decimal.Rounding
import RunTrace.Proofs.Decimal.Value

/-!
# Doubles read back from decimal numbers

Every finite double is a decimal number exactly, and the nearest double of that number is the
double again. So the search for the shortest number that reads back cannot fail, and whatever
it finds reads back.

## Main results

* `toFloat_ofFloat`: the exact decimal number of a double reads back as its magnitude;
* `toFloat_shortest`: so does the shortest one.
-/

namespace RunTrace

open Float.Model (Format UnpackedFloat totalExponent)
open Float.Model.UnpackedFloat
open Packing

namespace Decimal

/-! ## Exact decimal numbers -/

/-- A magnitude has the value of its parts. -/
theorem value_magnitude (parts : BinaryParts) :
    parts.magnitude.value = parts.significand * 2 ^ parts.exponent := by
  obtain ⟨-, significand, exponent⟩ := parts
  cases exponent with
  | ofNat e =>
    change ((significand * 2 ^ e : ℕ) : ℚ) * 10 ^ (0 : ℤ) = significand * 2 ^ (e : ℤ)
    rw [zpow_zero, mul_one, zpow_natCast]
    push_cast
    rfl
  | negSucc e =>
    -- A negative power of two is one of ten, with as many factors of five in the coefficient.
    have hten : (10 : ℚ) ^ (e + 1) = 5 ^ (e + 1) * 2 ^ (e + 1) := by rw [← mul_pow]; norm_num
    change ((significand * 5 ^ (e + 1) : ℕ) : ℚ) * 10 ^ Int.negSucc e =
      significand * 2 ^ Int.negSucc e
    rw [zpow_negSucc, zpow_negSucc, hten, mul_inv]
    push_cast
    rw [mul_assoc, mul_inv_cancel_left₀ (by positivity)]

theorem value_ofFloat (x : Float) :
    (ofFloat x).value = (BinaryParts.ofBits x.toBits).significand *
      2 ^ (BinaryParts.ofBits x.toBits).exponent :=
  value_magnitude _

/-- The exact decimal number of a finite double reads back as its magnitude. -/
theorem toFloat_ofFloat {x : Float} (h : x.isFinite = true) : (ofFloat x).toFloat = x.abs := by
  obtain ⟨f⟩ := x
  have hvalue := value_reduced (ofFloat ⟨f⟩)
  rw [value_ofFloat] at hvalue
  have habs : (⟨f⟩ : Float).abs = ⟨Float.Model.pack f.unpack.abs⟩ := rfl
  rw [habs, toFloat, Float.Model.ofScientific]
  -- A zero has no parts that fit the format, but its coefficient is zero.
  rcases unpack_cases h with ⟨hzero, hunpack⟩ | ⟨fits, hunpack⟩
  · have hcoefficient : (ofFloat ⟨f⟩).coefficient = 0 := by
      rw [← value_eq_zero_iff, value_ofFloat]
      have : (BinaryParts.ofBits (⟨f⟩ : Float).toBits).significand = 0 := hzero
      rw [this, Nat.cast_zero, zero_mul]
    rw [reduced_of_coefficient_eq_zero hcoefficient, hunpack]
    rfl
  · rw [ofScientific_eq_finite fits hvalue, hunpack]
    rfl

/-! ## The shortest one -/

/-- What the search for the shortest number finds reads back. -/
theorem toFloat_shortest (tie : Tie) {x : Float} (h : x.isFinite = true) :
    (shortest tie x).toFloat = x.abs := by
  unfold shortest
  dsimp only
  cases hfound : (((List.range (digits (ofFloat x).coefficient).length).map (· + 1)).findSome?
      fun n => (neighbours tie (ofFloat x) n).find? (readsBackAs · x.abs)) with
  | none =>
    -- Where nothing shorter reads back, the exact number is taken.
    rw [Option.getD_none]
    exact toFloat_ofFloat h
  | some d =>
    obtain ⟨n, -, hn⟩ := List.exists_of_findSome?_eq_some hfound
    have hreads := List.find?_some hn
    rw [readsBackAs, beq_iff_eq] at hreads
    rw [Option.getD_some]
    exact Float.toBits_inj.1 hreads

end Decimal

end RunTrace
