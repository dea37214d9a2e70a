import RunTrace.Proofs.Decimal.Packing

/-!
# Rounding to the nearest double

A decimal number is made a double by one rounding, of a product if its power of ten is a whole
number and of a quotient otherwise. Where the number is a double already, nothing is rounded
away.

## Main results

* `roundWithAccuracy_exact`: rounding leaves parts that fit the format as they are;
* `ofScientific_eq_finite`: a decimal number with the value of a double is made that double.
-/

namespace RunTrace.Packing

open Float.Model (Format UnpackedFloat totalExponent)
open Float.Model.UnpackedFloat

/-! ## Parts that fit -/

theorem log2_mul_two_pow {m : ℕ} (hpos : 0 < m) (k : ℕ) : (m * 2 ^ k).log2 = m.log2 + k := by
  have hne := Nat.ne_of_gt hpos
  refine (Nat.log2_eq_iff (Nat.mul_ne_zero hne (by positivity))).2 ⟨?_, ?_⟩
  · rw [pow_add]
    exact Nat.mul_le_mul_right _ (Nat.log2_self_le hne)
  · rw [show m.log2 + k + 1 = m.log2 + 1 + k by ring, pow_add]
    exact Nat.mul_lt_mul_of_pos_right Nat.lt_log2_self (by positivity)

/-- The exponent of parts that are aligned is the one that the format asks for. -/
theorem targetExponent_of_aligned {m : ℕ} {e : ℤ} (aligned : Aligned m e) :
    Format.binary64.targetExponent (totalExponent m e) = e := by
  have hne := Nat.ne_of_gt aligned.pos
  have hlog := (Nat.log2_lt hne).2 aligned.lt
  have hge := aligned.ge
  change max ((m.log2 : ℤ) + 1 + e - 53) (-1074) = e
  -- A full significand keeps its 53 bits, and others are at the lowest exponent anyway.
  rcases aligned.full with hfull | hlow
  · have := (Nat.le_log2 hne).2 hfull
    omega
  · omega

/-- No bit is lost when zeros are shifted out. -/
theorem shiftRight_mul_two_pow (m k : ℕ) :
    (⟨m * 2 ^ k, false, false⟩ : ExtendedMantissa) >>> k = ⟨m, false, false⟩ := by
  induction k generalizing m with
  | zero => simp [HShiftRight.hShiftRight, Nat.repeat]
  | succ k ih =>
    -- Bits are shifted out one by one, and each of them is a factor of two.
    have hstep : (⟨m * 2 ^ (k + 1), false, false⟩ : ExtendedMantissa) >>> (k + 1) =
        ((⟨2 * m * 2 ^ k, false, false⟩ : ExtendedMantissa) >>> k).shiftRightOne := by
      rw [show m * 2 ^ (k + 1) = 2 * m * 2 ^ k by ring]
      rfl
    rw [hstep, ih]
    simp [ExtendedMantissa.shiftRightOne]

/-- Shifting to the exponent of parts that are aligned. -/
theorem shiftToTargetExponent_exact {m : ℕ} {e : ℤ} (aligned : Aligned m e) (k : ℕ) :
    shiftToTargetExponent .binary64 (m * 2 ^ k) (e - k) .exact = (⟨m, false, false⟩, e) := by
  have htotal : totalExponent (m * 2 ^ k) (e - k) = totalExponent m e := by
    rw [totalExponent, totalExponent, log2_mul_two_pow aligned.pos]
    push_cast
    ring
  have hshift : (e - (e - k)).toNat = k := by omega
  simp only [shiftToTargetExponent, htotal, targetExponent_of_aligned aligned, shiftToExponent,
    hshift, ExtendedMantissa.ofMantissaAndAccuracy, shiftRight_mul_two_pow, sub_add_cancel]

/-- Rounding leaves parts that are aligned as they are. -/
theorem roundWithAccuracy_exact {m : ℕ} {e : ℤ} (aligned : Aligned m e) (sign : Sign) (k : ℕ) :
    roundWithAccuracy .binary64 sign (m * 2 ^ k) (e - k) .exact =
      .finite sign m e aligned.pos := by
  -- Rounding shifts, rounds and shifts again; after the first shift there is nothing left to do.
  have hfirst := shiftToTargetExponent_exact aligned k
  have hsecond : shiftToTargetExponent .binary64 m e .exact = (⟨m, false, false⟩, e) := by
    simpa using shiftToTargetExponent_exact aligned 0
  have hrounded : (⟨m, false, false⟩ : ExtendedMantissa).roundedMantissa = m := rfl
  simp only [roundWithAccuracy, hfirst, hrounded, hsecond, dif_neg (Nat.ne_of_gt aligned.pos)]

/-! ## Values -/

theorem value_lt_of_fits {m : ℕ} {e : ℤ} (fits : Fits m e) : (m : ℚ) * 2 ^ e < 2 ^ (53 + e) := by
  have hlt : (m : ℚ) < 2 ^ (53 : ℕ) := by exact_mod_cast fits.lt
  rw [zpow_add₀ (by norm_num)]
  exact mul_lt_mul_of_pos_right hlt (zpow_pos (by norm_num) e)

theorem le_value_of_fits {m : ℕ} {e : ℤ} (fits : Fits m e) : (2 : ℚ) ^ e ≤ m * 2 ^ e := by
  have hle : (1 : ℚ) ≤ m := by exact_mod_cast fits.pos
  exact le_mul_of_one_le_left (zpow_pos (by norm_num) e).le hle

/-- Rounding gives the parts that fit, whatever other parts of the same value are rounded, if
their exponent is not larger. -/
theorem roundWithAccuracy_of_value_eq {m : ℕ} {e : ℤ} (fits : Fits m e) (sign : Sign) {n : ℕ}
    {f : ℤ} (h : (n : ℚ) * 2 ^ f = m * 2 ^ e) (hle : f ≤ e) :
    roundWithAccuracy .binary64 sign n f .exact = .finite sign m e fits.pos := by
  obtain ⟨k, rfl⟩ : ∃ k : ℕ, f = e - k := ⟨(e - f).toNat, by omega⟩
  -- The significands differ by the power of two by which the exponents differ.
  have hn : n = m * 2 ^ k := by
    have htwo : (2 : ℚ) ^ (e - k) ≠ 0 := zpow_ne_zero _ (by norm_num)
    have hcast : (n : ℚ) = (m * 2 ^ k : ℕ) := by
      refine mul_right_cancel₀ htwo ?_
      rw [h, Nat.cast_mul, mul_assoc, Nat.cast_pow, Nat.cast_ofNat, ← zpow_natCast,
        ← zpow_add₀ (by norm_num), add_sub_cancel]
    exact_mod_cast hcast
  rw [hn, roundWithAccuracy_exact fits.toAligned]

/-! ## Decimal numbers -/

/-- A whole number that is not too large is made a double by rounding a product. -/
theorem ofScientific_of_nonneg {c : ℕ} {x : ℤ} (hc : 0 < c) (hx : 0 ≤ x) (hle : x ≤ 2048) :
    ofScientific .binary64 c x =
      roundWithAccuracy .binary64 (.positive * .positive) ((c <<< 53) * 10 ^ x.toNat) (-53 + 0)
        .exact := by
  have hlarge : ¬ x > 2 ^ Format.binary64.exponentBits := by
    change ¬ x > 2048
    omega
  have hsmall : ¬ x < -((2 ^ Format.binary64.exponentBits : ℤ) + c.log2) := by
    change ¬ x < -(2048 + (c.log2 : ℤ))
    omega
  rw [ofScientific, dif_neg hc.ne', if_neg hlarge, if_neg hsmall, if_pos hx]
  rfl

/-- A number with a fraction that is not too small is made a double by rounding a quotient. -/
theorem ofScientific_of_neg {c : ℕ} {x : ℤ} (hc : 0 < c) (hx : x < 0)
    (hle : -(2048 + (c.log2 : ℤ)) ≤ x) :
    ofScientific .binary64 c x =
      let (q, f, accuracy) := divCore .binary64 c 0 (10 ^ (-x).toNat) 0
      roundWithAccuracy .binary64 (.positive / .positive) q f accuracy := by
  have hlarge : ¬ x > 2 ^ Format.binary64.exponentBits := by
    change ¬ x > 2048
    omega
  have hsmall : ¬ x < -((2 ^ Format.binary64.exponentBits : ℤ) + c.log2) := by
    change ¬ x < -(2048 + (c.log2 : ℤ))
    omega
  rw [ofScientific, dif_neg hc.ne', if_neg hlarge, if_neg hsmall, if_neg (by omega)]
  rfl

theorem two_zpow_le_ten_zpow {x : ℤ} (h : 0 ≤ x) : (2 : ℚ) ^ x ≤ 10 ^ x := by
  obtain ⟨n, rfl⟩ := Int.eq_ofNat_of_zero_le h
  rw [zpow_natCast, zpow_natCast]
  exact pow_le_pow_left₀ (by norm_num) (by norm_num) n

theorem ten_zpow_le_two_zpow {x : ℤ} (h : x ≤ 0) : (10 : ℚ) ^ x ≤ 2 ^ x := by
  obtain ⟨n, rfl⟩ := Int.exists_eq_neg_ofNat h
  rw [zpow_neg, zpow_neg, zpow_natCast, zpow_natCast]
  exact inv_anti₀ (by positivity) (pow_le_pow_left₀ (by norm_num) (by norm_num) n)

section Decimal

variable {c : ℕ} {x : ℤ} {m : ℕ} {e : ℤ}

/-- A decimal number that is a double has a coefficient. -/
theorem coefficient_pos_of_value_eq (fits : Fits m e) (h : (c : ℚ) * 10 ^ x = m * 2 ^ e) :
    0 < c := by
  refine Nat.pos_of_ne_zero fun hzero => ?_
  rw [hzero, Nat.cast_zero, zero_mul] at h
  have hpos : (0 : ℚ) < m := by exact_mod_cast fits.pos
  have := mul_pos hpos (zpow_pos (by norm_num : (0 : ℚ) < 2) e)
  exact absurd h.symm this.ne'

/-- A decimal number that is a double has no large power of ten. -/
theorem exponent_le_of_value_eq (fits : Fits m e) (h : (c : ℚ) * 10 ^ x = m * 2 ^ e) :
    x ≤ 1024 := by
  by_contra hlarge
  -- Otherwise the power of ten alone exceeds every double.
  have hc : (1 : ℚ) ≤ c := by exact_mod_cast coefficient_pos_of_value_eq fits h
  have hpower : (10 : ℚ) ^ x ≤ c * 10 ^ x :=
    le_mul_of_one_le_left (zpow_pos (by norm_num) x).le hc
  have hupper : (10 : ℚ) ^ x < 2 ^ (53 + e) := (hpower.trans_eq h).trans_lt (value_lt_of_fits fits)
  have hexponent : x < 53 + e :=
    (zpow_lt_zpow_iff_right₀ (by norm_num)).1 ((two_zpow_le_ten_zpow (by omega)).trans_lt hupper)
  have := fits.le
  omega

/-- A decimal number that is a double has no small power of ten, unless its coefficient makes up
for that. -/
theorem le_exponent_of_value_eq (fits : Fits m e) (h : (c : ℚ) * 10 ^ x = m * 2 ^ e) :
    -1074 - (c.log2 + 1 : ℤ) ≤ x := by
  by_contra hsmall
  -- Otherwise the number is below the lowest power of two of the format.
  have hc : (c : ℚ) < 2 ^ ((c.log2 : ℤ) + 1) := by
    have : c < 2 ^ (c.log2 + 1) := Nat.lt_log2_self
    rw [← Nat.cast_succ, zpow_natCast]
    exact_mod_cast this
  have hten := ten_zpow_le_two_zpow (by omega : x ≤ 0)
  have hlower : (2 : ℚ) ^ e < 2 ^ ((c.log2 : ℤ) + 1 + x) :=
    calc (2 : ℚ) ^ e
      _ ≤ c * 10 ^ x := (le_value_of_fits fits).trans_eq h.symm
      _ ≤ c * 2 ^ x := mul_le_mul_of_nonneg_left hten (Nat.cast_nonneg c)
      _ < 2 ^ ((c.log2 : ℤ) + 1) * 2 ^ x := mul_lt_mul_of_pos_right hc (zpow_pos (by norm_num) x)
      _ = 2 ^ ((c.log2 : ℤ) + 1 + x) := (zpow_add₀ (by norm_num) _ _).symm
  have := (zpow_lt_zpow_iff_right₀ (by norm_num)).1 hlower
  have := fits.ge
  omega

/-- The product by which a decimal number is rounded that is a whole number. -/
theorem mul_of_value_eq (fits : Fits m e) (h : (c : ℚ) * 10 ^ x = m * 2 ^ e) (hx : 0 ≤ x) :
    roundWithAccuracy .binary64 (.positive * .positive) ((c <<< 53) * 10 ^ x.toNat) (-53 + 0)
      .exact = .finite .positive m e fits.pos := by
  obtain ⟨k, rfl⟩ := Int.eq_ofNat_of_zero_le hx
  refine roundWithAccuracy_of_value_eq fits _ ?_ ?_
  · rw [← h, Nat.shiftLeft_eq, Int.toNat_natCast, zpow_natCast]
    push_cast
    have hunit : (2 : ℚ) ^ 53 * 2 ^ (-53 + 0 : ℤ) = 1 := by norm_num
    linear_combination c * 10 ^ k * hunit
  -- A double that is at least one has an exponent above -53.
  · have hone : (1 : ℚ) ≤ c * 10 ^ (k : ℤ) := by
      have : 1 ≤ c * 10 ^ k :=
        Nat.mul_pos (coefficient_pos_of_value_eq fits h) (Nat.pow_pos (by decide))
      rw [zpow_natCast]
      exact_mod_cast this
    have hlt : (2 : ℚ) ^ (0 : ℤ) < 2 ^ (53 + e) := by
      rw [zpow_zero]
      exact (hone.trans_eq h).trans_lt (value_lt_of_fits fits)
    have := (zpow_lt_zpow_iff_right₀ (by norm_num)).1 hlt
    omega

/-- The exponent of a quotient before it is rounded is not larger than the one that fits. -/
theorem divExponent_le (fits : Fits m e) {d : ℕ} (hd : 0 < d) (h : (c : ℚ) = m * 2 ^ e * d) :
    max ((c.log2 : ℤ) - d.log2 - 53) (-1074) ≤ e := by
  have hc : c ≠ 0 := by
    rintro rfl
    have hm : (0 : ℚ) < m := by exact_mod_cast fits.pos
    have hd : (0 : ℚ) < d := by exact_mod_cast hd
    have := mul_pos (mul_pos hm (zpow_pos (by norm_num : (0 : ℚ) < 2) e)) hd
    rw [← h, Nat.cast_zero] at this
    exact lt_irrefl _ this
  have hcoefficient : (2 : ℚ) ^ (c.log2 : ℤ) ≤ c := by
    rw [zpow_natCast]
    exact_mod_cast Nat.log2_self_le hc
  have hdivisor : (d : ℚ) < 2 ^ ((d.log2 : ℤ) + 1) := by
    have : d < 2 ^ (d.log2 + 1) := Nat.lt_log2_self
    rw [← Nat.cast_succ, zpow_natCast]
    exact_mod_cast this
  -- The coefficient is below the product of two powers of two, and so is its own power.
  have hlog : (2 : ℚ) ^ (c.log2 : ℤ) < 2 ^ (53 + e + ((d.log2 : ℤ) + 1)) :=
    calc (2 : ℚ) ^ (c.log2 : ℤ)
      _ ≤ m * 2 ^ e * d := hcoefficient.trans_eq h
      _ < 2 ^ (53 + e) * 2 ^ ((d.log2 : ℤ) + 1) :=
        mul_lt_mul'' (value_lt_of_fits fits) hdivisor
          (mul_nonneg (Nat.cast_nonneg m) (zpow_pos (by norm_num) e).le) (Nat.cast_nonneg d)
      _ = 2 ^ (53 + e + ((d.log2 : ℤ) + 1)) := (zpow_add₀ (by norm_num) _ _).symm
  have := (zpow_lt_zpow_iff_right₀ (by norm_num)).1 hlog
  have := fits.ge
  omega

/-- The quotient by which a decimal number is rounded that has a fraction. -/
theorem div_of_value_eq (fits : Fits m e) (h : (c : ℚ) * 10 ^ x = m * 2 ^ e) (hx : x < 0) :
    let (q, f, accuracy) := divCore .binary64 c 0 (10 ^ (-x).toNat) 0
    roundWithAccuracy .binary64 (.positive / .positive) q f accuracy =
      .finite .positive m e fits.pos := by
  obtain ⟨k, rfl⟩ : ∃ k : ℕ, x = -k := ⟨(-x).toNat, by omega⟩
  rw [neg_neg, Int.toNat_natCast]
  have hpower : 0 < 10 ^ k := Nat.pow_pos (by decide)
  have hvalue : (c : ℚ) = m * 2 ^ e * (10 ^ k : ℕ) := by
    rw [← h, zpow_neg, zpow_natCast, Nat.cast_pow, Nat.cast_ofNat,
      inv_mul_cancel_right₀ (by positivity)]
  generalize 10 ^ k = d at hpower hvalue
  -- The exponent is lowered so far that the quotient has all bits that are asked for; as the
  -- number is a double, there is no remainder then.
  let low := min (0 : ℤ) (max ((c.log2 : ℤ) - d.log2 - 53) (-1074))
  have hlow : low ≤ e := (min_le_right _ _).trans (divExponent_le fits hpower hvalue)
  have hnonpos : low ≤ 0 := min_le_left _ _
  have htarget : min (0 - 0)
      (Format.binary64.targetExponent (totalExponent c 0 - totalExponent d 0)) = low := by
    change min (0 - 0) (max ((c.log2 : ℤ) + 1 + 0 - ((d.log2 : ℤ) + 1 + 0) - 53) (-1074)) = _
    omega
  have hquotient : c <<< (0 - 0 - low).toNat = m * 2 ^ (e - low).toNat * d := by
    have hcast : ((c <<< (0 - 0 - low).toNat : ℕ) : ℚ) = (m * 2 ^ (e - low).toNat * d : ℕ) := by
      rw [Nat.shiftLeft_eq]
      push_cast
      rw [← zpow_natCast, ← zpow_natCast, Int.toNat_of_nonneg (by omega),
        Int.toNat_of_nonneg (by omega), hvalue, sub_eq_add_neg e, zpow_add₀ (by norm_num),
        zero_sub]
      ring
    exact_mod_cast hcast
  have hcore : divCore .binary64 c 0 d 0 = (m * 2 ^ (e - low).toNat, low, .exact) := by
    simp only [divCore, htarget, hquotient, Nat.mul_div_cancel _ hpower, Nat.mul_mod_left]
    rfl
  rw [hcore]
  have hround := roundWithAccuracy_exact fits.toAligned (.positive / .positive) (e - low).toNat
  rw [Int.toNat_of_nonneg (by omega), sub_sub_cancel] at hround
  exact hround

end Decimal

/-- A decimal number with the value of a double is made that double. -/
theorem ofScientific_eq_finite {c : ℕ} {x : ℤ} {m : ℕ} {e : ℤ} (fits : Fits m e)
    (h : (c : ℚ) * 10 ^ x = m * 2 ^ e) :
    ofScientific .binary64 c x = .finite .positive m e fits.pos := by
  have hpos := coefficient_pos_of_value_eq fits h
  have hupper := exponent_le_of_value_eq fits h
  have hlower := le_exponent_of_value_eq fits h
  by_cases hx : 0 ≤ x
  · rw [ofScientific_of_nonneg hpos hx (by omega)]
    exact mul_of_value_eq fits h hx
  · rw [ofScientific_of_neg hpos (by omega) (by omega)]
    exact div_of_value_eq fits h (by omega)

end RunTrace.Packing
