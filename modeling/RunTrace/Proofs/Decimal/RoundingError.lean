import RunTrace.Proofs.Decimal.Rounding

/-!
# How far off rounding is

A significand that is too long is cut off, and two bits tell what is cut: whether it is half a unit
or more, and whether there is anything else. This is all that has to be known to take the nearest
significand, so a rounded number is off by half a unit at most.

## Main results

* `Represents.abs_sub_le`: what a cut off significand is rounded to;
* `roundWithAccuracy_isRounded`: rounding is off by half a unit of the last place at most;
* `IsRounded.mul_le`: with a full significand, this is at most one part in `2 ^ 53`.
-/

namespace RunTrace.Packing

open Float.Model (Format UnpackedFloat totalExponent)
open Float.Model.UnpackedFloat

/-! ## What is cut off -/

/-- The half unit that a round bit stands for. -/
def half (roundBit : Bool) : ℚ :=
  if roundBit then 1 / 2 else 0

/-- A significand that was cut off stands for a number: behind the half unit of the round bit there
is less than another one, and nothing unless the sticky bit is set. -/
def Represents (extended : ExtendedMantissa) (v : ℚ) : Prop :=
  ∃ rest : ℚ, v = extended.mantissa + half extended.roundBit + rest ∧ 0 ≤ rest ∧ rest < 1 / 2 ∧
    (extended.stickyBit = false → rest = 0)

namespace Represents

variable {extended : ExtendedMantissa} {v : ℚ}

theorem shiftRightOne (h : Represents extended v) : Represents extended.shiftRightOne (v / 2) := by
  obtain ⟨m, roundBit, stickyBit⟩ := extended
  obtain ⟨rest, rfl, hnonneg, hlt, hsticky⟩ := h
  have hhalf : 0 ≤ half roundBit ∧ half roundBit ≤ 1 / 2 := by cases roundBit <;> simp [half]
  -- The lowest bit becomes the round bit, and the old one joins what is cut off behind it.
  have hsplit : (m : ℚ) = 2 * (m / 2 : ℕ) + 2 * half (m % 2 != 0) := by
    have hdiv : (m : ℚ) = 2 * (m / 2 : ℕ) + (m % 2 : ℕ) := by
      exact_mod_cast (Nat.div_add_mod m 2).symm
    rcases Nat.mod_two_eq_zero_or_one m with hmod | hmod <;> rw [hmod] at hdiv ⊢ <;>
      simpa [half] using hdiv
  refine ⟨(half roundBit + rest) / 2, ?_, by linarith, by linarith, fun hnone => ?_⟩
  · simp only [ExtendedMantissa.shiftRightOne]
    linarith
  · obtain ⟨rfl, hrest⟩ := Bool.or_eq_false_iff.1 hnone
    rw [hsticky hrest]
    norm_num [half]

theorem shiftRight (h : Represents extended v) (k : ℕ) :
    Represents (extended >>> k) (v / 2 ^ k) := by
  induction k with
  | zero =>
    rw [pow_zero, div_one]
    exact h
  | succ k ih =>
    rw [pow_succ, ← div_div]
    exact ih.shiftRightOne

/-- What a cut off significand is rounded to is off by half a unit at most. -/
theorem abs_sub_le (h : Represents extended v) : |(extended.roundedMantissa : ℚ) - v| ≤ 1 / 2 := by
  obtain ⟨m, roundBit, stickyBit⟩ := extended
  obtain ⟨rest, rfl, hnonneg, hlt, hsticky⟩ := h
  rw [abs_le]
  cases roundBit with
  | false =>
    have hrounded : (⟨m, false, stickyBit⟩ : ExtendedMantissa).roundedMantissa = m := by
      cases stickyBit <;> rfl
    rw [hrounded]
    constructor <;> norm_num [half] <;> linarith
  | true =>
    cases stickyBit with
    | true =>
      change -(1 / 2) ≤ ((m + 1 : ℕ) : ℚ) - _ ∧ ((m + 1 : ℕ) : ℚ) - _ ≤ 1 / 2
      constructor <;> push_cast <;> norm_num [half] <;> linarith
    -- Exactly half a unit is as far from either neighbour, and the even one is taken.
    | false =>
      have hmod : ((m % 2 : ℕ) : ℚ) = 0 ∨ ((m % 2 : ℕ) : ℚ) = 1 := by
        exact_mod_cast Nat.mod_two_eq_zero_or_one m
      change -(1 / 2) ≤ ((m + m % 2 : ℕ) : ℚ) - _ ∧ ((m + m % 2 : ℕ) : ℚ) - _ ≤ 1 / 2
      rw [Nat.cast_add, hsticky rfl]
      rcases hmod with hmod | hmod <;> rw [hmod] <;> constructor <;> norm_num [half]

end Represents

theorem represents_exact (n : ℕ) : Represents (.ofMantissaAndAccuracy n .exact) n :=
  ⟨0, by norm_num [ExtendedMantissa.ofMantissaAndAccuracy, half], le_rfl, by norm_num, fun _ => rfl⟩

/-- What is left of a division tells how the quotient has to be rounded. -/
theorem represents_quotient (n : ℕ) {d : ℕ} (hd : 0 < d) :
    Represents (.ofMantissaAndAccuracy (n / d) (accuracyOfFraction (n % d) d)) (n / d) := by
  have hpos : (0 : ℚ) < d := by exact_mod_cast hd
  have hlt : ((n % d : ℕ) : ℚ) < d := by exact_mod_cast Nat.mod_lt n hd
  have hsplit : (n : ℚ) / d = (n / d : ℕ) + (n % d : ℕ) / d := by
    rw [← mul_div_cancel_right₀ ((n / d : ℕ) : ℚ) hpos.ne', ← add_div]
    congr 1
    exact_mod_cast (Nat.div_add_mod' n d).symm
  rw [hsplit, accuracyOfFraction]
  generalize n % d = r at hlt
  have hbelow : (r : ℚ) / d < 1 := (div_lt_one hpos).2 hlt
  by_cases hzero : r = 0
  · rw [if_pos hzero, hzero]
    exact ⟨0, by norm_num [ExtendedMantissa.ofMantissaAndAccuracy, half], le_rfl, by norm_num,
      fun _ => rfl⟩
  · rw [if_neg hzero]
    -- The remainder is compared with half the divisor.
    have hlower : 0 ≤ (r : ℚ) / d := by positivity
    cases hcompare : compare (2 * r) d with
    | lt =>
      have : (2 * r : ℚ) < d := by exact_mod_cast Nat.compare_eq_lt.1 hcompare
      refine ⟨r / d, by norm_num [ExtendedMantissa.ofMantissaAndAccuracy, half], hlower, ?_,
        fun hnone => absurd hnone.symm Bool.false_ne_true⟩
      rw [div_lt_div_iff₀ hpos (by norm_num)]
      linarith
    | eq =>
      have : (2 * r : ℚ) = d := by exact_mod_cast Nat.compare_eq_eq.1 hcompare
      refine ⟨0, ?_, le_rfl, by norm_num, fun _ => rfl⟩
      have hhalf : (r : ℚ) / d = 1 / 2 := by
        rw [div_eq_div_iff hpos.ne' (by norm_num)]
        linarith
      norm_num [ExtendedMantissa.ofMantissaAndAccuracy, half, hhalf]
    | gt =>
      have : (d : ℚ) < 2 * r := by exact_mod_cast Nat.compare_eq_gt.1 hcompare
      have hhalf : (1 : ℚ) / 2 < r / d := by
        rw [div_lt_div_iff₀ (by norm_num) hpos]
        linarith
      exact ⟨r / d - 1 / 2, by norm_num [ExtendedMantissa.ofMantissaAndAccuracy, half],
        by linarith, by linarith, fun hnone => absurd hnone.symm Bool.false_ne_true⟩

/-! ## What is rounded -/

theorem mantissa_shiftRight (extended : ExtendedMantissa) (k : ℕ) :
    (extended >>> k).mantissa = extended.mantissa / 2 ^ k := by
  induction k with
  | zero => exact (Nat.div_one _).symm
  | succ k ih =>
    rw [pow_succ, ← Nat.div_div_eq_div_mul, ← ih]
    rfl

theorem mantissa_ofMantissaAndAccuracy (n : ℕ) (accuracy : Accuracy) :
    (ExtendedMantissa.ofMantissaAndAccuracy n accuracy).mantissa = n := by
  rcases accuracy with _ | (_ | _ | _) <;> rfl

theorem roundedMantissa_bounds (extended : ExtendedMantissa) :
    extended.mantissa ≤ extended.roundedMantissa ∧
      extended.roundedMantissa ≤ extended.mantissa + 1 := by
  obtain ⟨m, roundBit, stickyBit⟩ := extended
  cases roundBit <;> cases stickyBit <;>
    simp only [ExtendedMantissa.roundedMantissa, ExtendedMantissa.accuracy,
      Accuracy.roundToNearestEven] <;> omega

/-- The parts that a number is rounded to. -/
structure IsRounded (v : ℚ) (m : ℕ) (e : ℤ) : Prop extends Aligned m e where
  /-- They are off by half a unit of the last place at most. -/
  near : |(m : ℚ) * 2 ^ e - v| ≤ 2 ^ e / 2

/-- With a full significand, what is rounded is off by one part in `2 ^ 53` at most. -/
theorem IsRounded.mul_le {v : ℚ} {m : ℕ} {e : ℤ} (h : IsRounded v m e) (full : 2 ^ 52 ≤ m) :
    (m : ℚ) * 2 ^ e * (1 - 1 / 2 ^ 53) ≤ v := by
  have hnear := (abs_le.1 h.near).2
  have hunit : (2 : ℚ) ^ 52 * 2 ^ e ≤ m * 2 ^ e :=
    mul_le_mul_of_nonneg_right (by exact_mod_cast full) (zpow_pos (by norm_num) e).le
  linarith

/-- The first shift leaves 53 bits at most, and all of them unless the exponent is the lowest one. A
significand that is too short for that has to be that of a tiny number. -/
theorem exists_shift {n : ℕ} {f : ℤ} (accuracy : Accuracy) (hlong : 2 ^ 52 ≤ n ∨ f ≤ -1074) :
    ∃ k : ℕ, shiftToTargetExponent .binary64 n f accuracy =
        (ExtendedMantissa.ofMantissaAndAccuracy n accuracy >>> k, f + k) ∧
      -1074 ≤ f + k ∧ n / 2 ^ k < 2 ^ 53 ∧ (2 ^ 52 ≤ n / 2 ^ k ∨ f + k = -1074) := by
  -- The exponent that the format asks for is not below `f`.
  have hle : f ≤ max ((n.log2 : ℤ) + 1 + f - 53) (-1074) := by
    rcases hlong with hlong | hlow
    · have := (Nat.le_log2 (by omega)).2 hlong
      omega
    · omega
  obtain ⟨k, hk⟩ : ∃ k : ℕ, max ((n.log2 : ℤ) + 1 + f - 53) (-1074) = f + k :=
    ⟨(max ((n.log2 : ℤ) + 1 + f - 53) (-1074) - f).toNat, by omega⟩
  refine ⟨k, ?_, by omega, ?_, ?_⟩
  · have htarget : Format.binary64.targetExponent (totalExponent n f) = f + k := hk
    have hshift : (f + k - f).toNat = k := by omega
    simp only [shiftToTargetExponent, htarget, shiftToExponent, hshift]
  · rw [Nat.div_lt_iff_lt_mul (by positivity), ← pow_add]
    exact Nat.lt_log2_self.trans_le (Nat.pow_le_pow_right (by norm_num) (by omega))
  · by_cases hlow : f + k = -1074
    · exact .inr hlow
    · have hlog : 52 + k = n.log2 := by omega
      have hn : n ≠ 0 := by
        rintro rfl
        rw [Nat.log2_zero] at hlog
        omega
      rw [Nat.le_div_iff_mul_le (by positivity), ← pow_add, hlog]
      exact .inl (Nat.log2_self_le hn)

/-- After the first shift there is one bit too many at most, by rounding up. -/
theorem roundWithAccuracy_of_shift (sign : Sign) {n : ℕ} {f : ℤ} {accuracy : Accuracy}
    {first : ExtendedMantissa} {e : ℤ}
    (hfirst : shiftToTargetExponent .binary64 n f accuracy = (first, e)) (hge : -1074 ≤ e)
    (hle : first.roundedMantissa ≤ 2 ^ 53)
    (hfull : 2 ^ 52 ≤ first.roundedMantissa ∨ e = -1074) :
    (first.roundedMantissa = 0 ∧ roundWithAccuracy .binary64 sign n f accuracy = .zero sign) ∨
      ∃ m j : ℕ, ∃ aligned : Aligned m (e + j), first.roundedMantissa = m * 2 ^ j ∧
        roundWithAccuracy .binary64 sign n f accuracy = .finite sign m (e + j) aligned.pos := by
  -- If the rounded significand has the bits of an aligned one, the second shift is exact.
  have second : ∀ {m j : ℕ} (aligned : Aligned m (e + j)), first.roundedMantissa = m * 2 ^ j →
      roundWithAccuracy .binary64 sign n f accuracy = .finite sign m (e + j) aligned.pos := by
    intro m j aligned hrounded
    have hsecond := shiftToTargetExponent_exact aligned j
    rw [add_sub_cancel_right, ← hrounded] at hsecond
    simp only [roundWithAccuracy, hfirst, hsecond, dif_neg aligned.pos.ne']
  rcases Nat.eq_zero_or_pos first.roundedMantissa with hzero | hpos
  · refine .inl ⟨hzero, ?_⟩
    obtain ⟨k, hshift, -⟩ := exists_shift (n := 0) .exact (.inr (by omega : e ≤ -1074))
    have hmantissa := mantissa_shiftRight (.ofMantissaAndAccuracy 0 .exact) k
    rw [mantissa_ofMantissaAndAccuracy, Nat.zero_div] at hmantissa
    simp only [roundWithAccuracy, hfirst, hzero, hshift, hmantissa, dif_pos]
  · rcases hle.lt_or_eq with hlt | hcarry
    · have aligned : Aligned first.roundedMantissa (e + (0 : ℕ)) :=
        ⟨hpos, hlt, by omega, by omega⟩
      exact .inr ⟨_, 0, aligned, (mul_one _).symm, second aligned (mul_one _).symm⟩
    · have aligned : Aligned (2 ^ 52) (e + (1 : ℕ)) :=
        ⟨by norm_num, by norm_num, by omega, .inl le_rfl⟩
      exact .inr ⟨_, 1, aligned, hcarry, second aligned hcarry⟩

/-- A number is rounded to the nearest parts, or to zero if it is half the smallest double at
most. -/
theorem roundWithAccuracy_isRounded (sign : Sign) {n : ℕ} {f : ℤ} {accuracy : Accuracy} {v : ℚ}
    (h : Represents (.ofMantissaAndAccuracy n accuracy) v) (hlong : 2 ^ 52 ≤ n ∨ f ≤ -1074) :
    (roundWithAccuracy .binary64 sign n f accuracy = .zero sign ∧ v * 2 ^ f ≤ 2 ^ (-1074 : ℤ) / 2) ∨
      ∃ m e, ∃ rounded : IsRounded (v * 2 ^ f) m e,
        roundWithAccuracy .binary64 sign n f accuracy = .finite sign m e rounded.pos := by
  obtain ⟨k, hfirst, hge, hlt, hfull⟩ := exists_shift accuracy hlong
  have hbounds := roundedMantissa_bounds (ExtendedMantissa.ofMantissaAndAccuracy n accuracy >>> k)
  rw [mantissa_shiftRight, mantissa_ofMantissaAndAccuracy] at hbounds
  have hunit : (0 : ℚ) < 2 ^ (f + k) := zpow_pos (by norm_num) _
  have hvalue : v * 2 ^ f = v / 2 ^ k * 2 ^ (f + k) := by
    rw [zpow_add₀ (by norm_num), zpow_natCast]
    field_simp
  -- The significand is off by half a unit at most, and the unit is that of the first shift.
  have hnear := (h.shiftRight k).abs_sub_le
  rw [hvalue]
  rcases roundWithAccuracy_of_shift sign hfirst hge (by omega) (by omega) with
    ⟨hzero, hround⟩ | ⟨m, j, aligned, hrounded, hround⟩
  · refine .inl ⟨hround, ?_⟩
    rw [hzero, Nat.cast_zero, zero_sub, abs_neg] at hnear
    have hlow : f + k = -1074 := by omega
    rw [hlow] at hunit ⊢
    have := mul_le_mul_of_nonneg_right ((le_abs_self _).trans hnear) hunit.le
    linarith
  · refine .inr ⟨m, f + k + j, ⟨aligned, ?_⟩, hround⟩
    have hcarried : (m : ℚ) * 2 ^ (f + k + j) = (m * 2 ^ j : ℕ) * 2 ^ (f + k) := by
      rw [zpow_add₀ (by norm_num), zpow_natCast]
      push_cast
      ring
    have hlarger : (2 : ℚ) ^ (f + k) ≤ 2 ^ (f + k + j) :=
      zpow_le_zpow_right₀ (by norm_num) (by omega)
    rw [hcarried, ← hrounded, ← sub_mul, abs_mul, abs_of_pos hunit]
    have := mul_le_mul_of_nonneg_right hnear hunit.le
    linarith

end RunTrace.Packing
