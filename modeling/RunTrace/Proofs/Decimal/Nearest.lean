import RunTrace.Proofs.Decimal.RoundingError
import RunTrace.Proofs.Decimal.Value

/-!
# Nearest doubles

Decimal numbers are made doubles, and doubles are multiplied and divided, by rounding the exact
result once. So each of these gives the double nearest to a number, and from how far this is off it
follows when it is infinite.

## Main results

* `nearest_pack`: what is rounded and packed is the nearest double;
* `nearest_mul`, `nearest_div`: products and quotients of doubles are the doubles nearest to them;
* `nearest_toFloat`: the double of a decimal number is the nearest one.
-/

namespace RunTrace.Packing

open Float.Model (Format UnpackedFloat totalExponent)
open Float.Model.UnpackedFloat

/-! ## Results of rounding -/

/-- The value of the largest double. -/
def largest : ℚ :=
  (2 ^ 53 - 1) * 2 ^ 971

/-- The largest double is one part in `2 ^ 53` below the first power of two that is too large. -/
theorem largest_eq : largest = 2 ^ 1024 * (1 - 1 / 2 ^ 53) := by
  have hpower : (2 : ℚ) ^ 1024 = 2 ^ 53 * 2 ^ 971 := by rw [← pow_add]
  rw [largest, hpower]
  generalize (2 : ℚ) ^ 971 = unit
  ring

theorem largest_pos : 0 < largest :=
  mul_pos (by norm_num) (by positivity)

/-- The parts of the double that a nonnegative number is rounded to. It is infinite only if the
number is as large as the largest double. -/
inductive Nearest (v : ℚ) : UnpackedFloat → Prop
  | zero (nonneg : 0 ≤ v) (le : v ≤ 2 ^ (-1074 : ℤ) / 2) : Nearest v (.zero .positive)
  | finite {m : ℕ} {e : ℤ} (rounded : IsRounded v m e) (le : e ≤ 971) :
    Nearest v (.finite .positive m e rounded.pos)
  | infinity (ge : largest ≤ v) : Nearest v (.infinity .positive)

variable {v : ℚ} {u : UnpackedFloat} {m : ℕ} {e : ℤ}

/-- What is rounded is not more than one and a half times as large, and not less than half. -/
theorem IsRounded.bounds (h : IsRounded v m e) :
    (m : ℚ) * 2 ^ e ≤ 2 * v ∧ v ≤ 3 / 2 * ((m : ℚ) * 2 ^ e) := by
  obtain ⟨hlower, hupper⟩ := abs_le.1 h.near
  have hunit : (2 : ℚ) ^ e ≤ m * 2 ^ e :=
    le_mul_of_one_le_left (zpow_pos (by norm_num) e).le (by exact_mod_cast h.pos)
  constructor <;> linarith

theorem Nearest.nonneg (h : Nearest v u) : 0 ≤ v := by
  cases h with
  | zero nonneg le => exact nonneg
  | @finite m e rounded le =>
    have := rounded.bounds.1
    have : 0 ≤ (m : ℚ) * 2 ^ e := by positivity
    linarith
  | infinity ge => exact largest_pos.le.trans ge

/-- What is nearest to a number that is not negative is not negative itself. -/
theorem Nearest.not_lt (h : Nearest v u) : u.lt (.zero .positive) = false := by
  cases h <;> rfl

/-- The nearest double is finite unless the number is too large. -/
theorem Nearest.isFinite (h : Nearest v u) (hlt : v < largest) : u.isFinite = true := by
  cases h with
  | zero => rfl
  | finite => rfl
  | infinity ge => exact absurd hlt ge.not_gt

/-- What is rounded and packed is the nearest double. -/
theorem nearest_pack {n : ℕ} {f : ℤ} {accuracy : Accuracy} (hnonneg : 0 ≤ v)
    (h : Represents (.ofMantissaAndAccuracy n accuracy) v) (hlong : 2 ^ 52 ≤ n ∨ f ≤ -1074) :
    Nearest (v * 2 ^ f)
      (Float.Model.pack (roundWithAccuracy .binary64 .positive n f accuracy)).unpack := by
  rcases roundWithAccuracy_isRounded .positive h hlong with
    ⟨hzero, hle⟩ | ⟨m, e, rounded, hfinite⟩
  · rw [hzero, unpack_pack_zero]
    exact .zero (mul_nonneg hnonneg (zpow_pos (by norm_num) f).le) hle
  · rw [hfinite]
    by_cases hle : e ≤ 971
    · rw [unpack_pack_finite ⟨rounded.toAligned, hle⟩]
      exact .finite rounded hle
    · -- An exponent that is too large goes with a full significand.
      have hfull : 2 ^ 52 ≤ m := rounded.full.resolve_right (by omega)
      have hlarge : (2 : ℚ) ^ 1024 ≤ m * 2 ^ e := by
        have hpower : (2 : ℚ) ^ 972 ≤ 2 ^ e := by
          rw [← zpow_natCast]
          exact zpow_le_zpow_right₀ (by norm_num) (by push_cast; omega)
        calc (2 : ℚ) ^ 1024
          _ = 2 ^ 52 * 2 ^ 972 := by rw [← pow_add]
          _ ≤ m * 2 ^ e :=
            mul_le_mul (by exact_mod_cast hfull) hpower (by positivity) (by positivity)
      rw [pack_finite_of_lt rounded.pos (by omega)]
      refine .infinity (le_trans ?_ (rounded.mul_le hfull))
      rw [largest_eq]
      exact mul_le_mul_of_nonneg_right hlarge (by norm_num)

/-! ## Products and quotients -/

section Arithmetic

variable {a b : Float.Model} {m₁ m₂ : ℕ} {e₁ e₂ : ℤ}

/-- The product of two doubles is the one nearest to the product of their values. -/
theorem nearest_mul (aligned₁ : Aligned m₁ e₁) (aligned₂ : Aligned m₂ e₂)
    (ha : a.unpack = .finite .positive m₁ e₁ aligned₁.pos)
    (hb : b.unpack = .finite .positive m₂ e₂ aligned₂.pos) :
    Nearest (m₁ * 2 ^ e₁ * (m₂ * 2 ^ e₂)) (a * b).unpack := by
  have hmul : a * b = Float.Model.pack
      (roundWithAccuracy .binary64 .positive (m₁ * m₂) (e₁ + e₂) .exact) := by
    change Float.Model.pack (UnpackedFloat.mul .binary64 a.unpack b.unpack) = _
    rw [ha, hb]
    rfl
  have hvalue : (m₁ * 2 ^ e₁ * (m₂ * 2 ^ e₂) : ℚ) = (m₁ * m₂ : ℕ) * 2 ^ (e₁ + e₂) := by
    rw [zpow_add₀ (by norm_num)]
    push_cast
    ring
  -- The product is long if a factor is, and otherwise both of them are tiny.
  have hlong : 2 ^ 52 ≤ m₁ * m₂ ∨ e₁ + e₂ ≤ -1074 := by
    rcases aligned₁.full with hfull | hlow₁
    · exact .inl (hfull.trans (Nat.le_mul_of_pos_right m₁ aligned₂.pos))
    · rcases aligned₂.full with hfull | hlow₂
      · exact .inl (hfull.trans (Nat.le_mul_of_pos_left m₂ aligned₁.pos))
      · omega
  rw [hmul, hvalue]
  exact nearest_pack (by positivity) (represents_exact _) hlong

/-- Before it is rounded, a quotient has 53 bits or more, unless it is tiny. -/
theorem divCore_long (hpos₁ : 0 < m₁) (hpos₂ : 0 < m₂) (e₁ e₂ : ℤ) :
    ∃ k : ℕ, divCore .binary64 m₁ e₁ m₂ e₂ = (m₁ * 2 ^ k / m₂, e₁ - e₂ - k,
        accuracyOfFraction (m₁ * 2 ^ k % m₂) m₂) ∧
      (2 ^ 52 ≤ m₁ * 2 ^ k / m₂ ∨ e₁ - e₂ - k ≤ -1074) := by
  -- The exponent is lowered to the one that the format asks for.
  let target : ℤ :=
    min (e₁ - e₂) (max ((m₁.log2 : ℤ) + 1 + e₁ - ((m₂.log2 : ℤ) + 1 + e₂) - 53) (-1074))
  have htarget : min (e₁ - e₂)
      (Format.binary64.targetExponent (totalExponent m₁ e₁ - totalExponent m₂ e₂)) = target := rfl
  obtain ⟨k, hk⟩ : ∃ k : ℕ, target = e₁ - e₂ - k := ⟨(e₁ - e₂ - target).toNat, by omega⟩
  refine ⟨k, ?_, ?_⟩
  · have hshift : (e₁ - e₂ - target).toNat = k := by omega
    simp only [divCore, htarget, hshift, Nat.shiftLeft_eq]
    rw [hk]
  · by_cases hlow : e₁ - e₂ - k ≤ -1074
    · exact .inr hlow
    · refine .inl ((Nat.le_div_iff_mul_le hpos₂).2 ?_)
      have hbits : 52 + (m₂.log2 + 1) ≤ m₁.log2 + k := by omega
      calc 2 ^ 52 * m₂
        _ ≤ 2 ^ 52 * 2 ^ (m₂.log2 + 1) := Nat.mul_le_mul_left _ Nat.lt_log2_self.le
        _ = 2 ^ (52 + (m₂.log2 + 1)) := (pow_add _ _ _).symm
        _ ≤ 2 ^ (m₁.log2 + k) := Nat.pow_le_pow_right (by norm_num) hbits
        _ = 2 ^ m₁.log2 * 2 ^ k := pow_add _ _ _
        _ ≤ m₁ * 2 ^ k := Nat.mul_le_mul_right _ (Nat.log2_self_le hpos₁.ne')

/-- What is left of a division is rounded to the double nearest to the quotient. -/
theorem nearest_divCore (hpos₁ : 0 < m₁) (hpos₂ : 0 < m₂) (e₁ e₂ : ℤ) :
    Nearest (m₁ * 2 ^ e₁ / (m₂ * 2 ^ e₂)) (Float.Model.pack
      (match divCore .binary64 m₁ e₁ m₂ e₂ with
        | (q, f, accuracy) => roundWithAccuracy .binary64 .positive q f accuracy)).unpack := by
  -- The numerator is shifted by `k` bits, so the quotient is in units of the lower exponent.
  obtain ⟨k, hcore, hlong⟩ := divCore_long hpos₁ hpos₂ e₁ e₂
  have hvalue : (m₁ * 2 ^ e₁ / (m₂ * 2 ^ e₂) : ℚ) =
      (m₁ * 2 ^ k : ℕ) / m₂ * 2 ^ (e₁ - e₂ - k) := by
    rw [zpow_sub₀ (by norm_num), zpow_sub₀ (by norm_num), zpow_natCast]
    push_cast
    field_simp
  rw [hcore, hvalue]
  exact nearest_pack (by positivity) (represents_quotient _ hpos₂) hlong

/-- The quotient of two doubles is the one nearest to the quotient of their values. -/
theorem nearest_div {hpos₁ : 0 < m₁} {hpos₂ : 0 < m₂}
    (ha : a.unpack = .finite .positive m₁ e₁ hpos₁)
    (hb : b.unpack = .finite .positive m₂ e₂ hpos₂) :
    Nearest (m₁ * 2 ^ e₁ / (m₂ * 2 ^ e₂)) (a / b).unpack := by
  have hdiv : a / b = Float.Model.pack (match divCore .binary64 m₁ e₁ m₂ e₂ with
      | (q, f, accuracy) => roundWithAccuracy .binary64 .positive q f accuracy) := by
    change Float.Model.pack (UnpackedFloat.div .binary64 a.unpack b.unpack) = _
    rw [ha, hb]
    rfl
  rw [hdiv]
  exact nearest_divCore hpos₁ hpos₂ e₁ e₂

end Arithmetic

/-! ## Decimal numbers -/

section Scientific

variable {c : ℕ} {x : ℤ}

/-- A whole number that is not too large is rounded as a product. -/
theorem nearest_ofScientific_of_nonneg (hc : 0 < c) (hx : 0 ≤ x) (hle : x ≤ 2048) :
    Nearest (c * 10 ^ x) (Float.Model.pack (ofScientific .binary64 c x)).unpack := by
  obtain ⟨k, rfl⟩ := Int.eq_ofNat_of_zero_le hx
  -- The coefficient is shifted in front, so there are always enough bits.
  have hlong : 2 ^ 52 ≤ (c <<< 53) * 10 ^ k := by
    rw [Nat.shiftLeft_eq]
    calc 2 ^ 52
      _ ≤ c * 2 ^ 53 := by omega
      _ ≤ c * 2 ^ 53 * 10 ^ k := Nat.le_mul_of_pos_right _ (by positivity)
  have hvalue : (c * 10 ^ (k : ℤ) : ℚ) = ((c <<< 53) * 10 ^ k : ℕ) * 2 ^ (-53 : ℤ) := by
    have hunit : (2 : ℚ) ^ 53 * 2 ^ (-53 : ℤ) = 1 := by norm_num
    rw [Nat.shiftLeft_eq, zpow_natCast]
    push_cast
    linear_combination -(c * 10 ^ k : ℚ) * hunit
  rw [ofScientific_of_nonneg hc hx hle, Int.toNat_natCast, hvalue]
  exact nearest_pack (Nat.cast_nonneg _) (represents_exact _) (.inl hlong)

/-- A number with a fraction that is not too small is rounded as a quotient. -/
theorem nearest_ofScientific_of_neg (hc : 0 < c) (hx : x < 0) (hle : -(2048 + (c.log2 : ℤ)) ≤ x) :
    Nearest (c * 10 ^ x) (Float.Model.pack (ofScientific .binary64 c x)).unpack := by
  obtain ⟨k, rfl⟩ : ∃ k : ℕ, x = -k := ⟨(-x).toNat, by omega⟩
  have hvalue : (c * 10 ^ (-k : ℤ) : ℚ) = c * 2 ^ (0 : ℤ) / ((10 ^ k : ℕ) * 2 ^ (0 : ℤ)) := by
    rw [zpow_neg, zpow_natCast, zpow_zero, mul_one, mul_one, Nat.cast_pow, Nat.cast_ofNat,
      div_eq_mul_inv]
  rw [ofScientific_of_neg hc hx hle, neg_neg, Int.toNat_natCast, hvalue]
  exact nearest_divCore hc (by positivity) 0 0

/-- A power of ten that is too large is infinite, with any coefficient. -/
theorem nearest_ofScientific_of_large (hc : 0 < c) (hx : 2048 < x) :
    Nearest (c * 10 ^ x) (Float.Model.pack (ofScientific .binary64 c x)).unpack := by
  have hlarge : x > 2 ^ Format.binary64.exponentBits := hx
  rw [ofScientific, dif_neg hc.ne', if_pos hlarge]
  refine .infinity ?_
  have hone : (1 : ℚ) ≤ c := by exact_mod_cast hc
  calc largest
    _ ≤ 2 ^ 1024 := largest_eq.trans_le (mul_le_of_le_one_right (by positivity) (by norm_num))
    _ = 2 ^ (1024 : ℤ) := (zpow_natCast 2 1024).symm
    _ ≤ 2 ^ x := zpow_le_zpow_right₀ (by norm_num) (by omega)
    _ ≤ 10 ^ x := two_zpow_le_ten_zpow (by omega)
    _ ≤ c * 10 ^ x := le_mul_of_one_le_left (zpow_pos (by norm_num) x).le hone

/-- A power of ten that is too small leaves zero of the coefficient. -/
theorem nearest_ofScientific_of_small (hc : 0 < c) (hx : x < -(2048 + (c.log2 : ℤ))) :
    Nearest (c * 10 ^ x) (Float.Model.pack (ofScientific .binary64 c x)).unpack := by
  have hlarge : ¬ x > 2 ^ Format.binary64.exponentBits := by
    change ¬ x > 2048
    omega
  have hsmall : x < -((2 ^ Format.binary64.exponentBits : ℤ) + c.log2) := hx
  rw [ofScientific, dif_neg hc.ne', if_neg hlarge, if_pos hsmall, unpack_pack_zero]
  have hcoefficient : (c : ℚ) ≤ 2 ^ ((c.log2 : ℤ) + 1) := by
    have : c ≤ 2 ^ (c.log2 + 1) := Nat.lt_log2_self.le
    rw [← Nat.cast_succ, zpow_natCast]
    exact_mod_cast this
  refine .zero (mul_nonneg (Nat.cast_nonneg c) (zpow_pos (by norm_num) x).le) ?_
  calc (c : ℚ) * 10 ^ x
    _ ≤ 2 ^ ((c.log2 : ℤ) + 1) * 2 ^ x :=
      mul_le_mul hcoefficient (ten_zpow_le_two_zpow (by omega)) (zpow_pos (by norm_num) x).le
        (zpow_pos (by norm_num) _).le
    _ = 2 ^ ((c.log2 : ℤ) + 1 + x) := (zpow_add₀ (by norm_num) _ _).symm
    _ ≤ 2 ^ (-1074 - 1 : ℤ) := zpow_le_zpow_right₀ (by norm_num) (by omega)
    _ = 2 ^ (-1074 : ℤ) / 2 := zpow_sub_one₀ (by norm_num) _

/-- The double of a coefficient and a power of ten is the one nearest to their product. -/
theorem nearest_ofScientific (c : ℕ) (x : ℤ) :
    Nearest (c * 10 ^ x) (Float.Model.pack (ofScientific .binary64 c x)).unpack := by
  rcases Nat.eq_zero_or_pos c with rfl | hc
  · rw [ofScientific, dif_pos rfl, unpack_pack_zero, Nat.cast_zero, zero_mul]
    exact .zero le_rfl (by positivity)
  -- Numbers with a fraction are divided, others are multiplied, unless it is clear what comes out.
  rcases lt_or_ge x 0 with hneg | hnonneg
  · rcases lt_or_ge x (-(2048 + (c.log2 : ℤ))) with hsmall | hle
    · exact nearest_ofScientific_of_small hc hsmall
    · exact nearest_ofScientific_of_neg hc hneg hle
  · rcases le_or_gt x 2048 with hle | hlarge
    · exact nearest_ofScientific_of_nonneg hc hnonneg hle
    · exact nearest_ofScientific_of_large hc hlarge

end Scientific

/-- The double of a decimal number is the one nearest to it. -/
theorem nearest_toFloat (d : Decimal) : Nearest d.value d.toFloat.toModel.unpack := by
  rw [← d.value_reduced]
  exact nearest_ofScientific d.reduced.coefficient d.reduced.exponent

end RunTrace.Packing
