import RunTrace.Decimal.Scaled
import RunTrace.Proofs.Decimal.Nearest

/-!
# How far off scaling is

A scaled coefficient has been rounded three times: as a word, as a power of ten and as their
product. Each of these adds one part in `2 ^ 53` at most, so what is scaled is finite if the number
keeps that much away from where doubles end. Quotients are no larger than the word, so they are
always finite. The digits that are taken over into a word never stand for more than all of them.

## Main results

* `mul_lt_of_isRounded`: the product of two rounded numbers is not too large if the exact product
  is safe;
* `exists_nearest_scaled`: what a coefficient is scaled to is a double that is not negative, and it
  is finite if the number is safe;
* `takeDigits_takeDigits_le`: what the first digits stand for is not more than the number.
-/

namespace RunTrace.Decimal

open Packing
open Float.Model (UnpackedFloat)
open Float.Model.UnpackedFloat

/-- The magnitude up to which numbers are scaled to finite doubles: only two doubles are larger. -/
def safeMagnitude : ℚ :=
  (2 ^ 53 - 3) * 2 ^ 971

/-- A safe magnitude keeps three parts in `2 ^ 53` away from the first power of two that is too
large. -/
theorem safeMagnitude_eq : safeMagnitude = 2 ^ 1024 * (1 - 3 / 2 ^ 53) := by
  have hpower : (2 : ℚ) ^ 1024 = 2 ^ 53 * 2 ^ 971 := by rw [← pow_add]
  rw [safeMagnitude, hpower]
  generalize (2 : ℚ) ^ 971 = unit
  ring

theorem safeMagnitude_lt_largest : safeMagnitude < largest :=
  mul_lt_mul_of_pos_right (by norm_num) (by positivity)

/-! ## Products -/

/-- A number from one upwards is rounded to a full significand. -/
theorem full_of_isRounded {v : ℚ} {m : ℕ} {e : ℤ} (h : IsRounded v m e) (hone : 1 ≤ v) :
    2 ^ 52 ≤ m := by
  refine h.full.resolve_right fun hlow => ?_
  have hm : (m : ℚ) ≤ 2 ^ 53 := by exact_mod_cast h.lt.le
  have htiny : (m : ℚ) * 2 ^ e ≤ 1 / 2 := by
    calc (m : ℚ) * 2 ^ e
      _ ≤ 2 ^ 53 * 2 ^ (-54 : ℤ) := mul_le_mul hm
        (zpow_le_zpow_right₀ (by norm_num) (by omega)) (zpow_pos (by norm_num) e).le (by norm_num)
      _ = 1 / 2 := by norm_num
  have := h.bounds.2
  linarith

/-- The product of two rounded numbers is not too large if the exact product is safe. -/
theorem mul_lt_of_isRounded {v w : ℚ} {m₁ m₂ : ℕ} {e₁ e₂ : ℤ} (h₁ : IsRounded v m₁ e₁)
    (h₂ : IsRounded w m₂ e₂) (hv : 1 ≤ v) (hw : 1 ≤ w) (hle : v * w ≤ safeMagnitude) :
    (m₁ * 2 ^ e₁ * (m₂ * 2 ^ e₂) : ℚ) < largest := by
  have hfirst := h₁.mul_le (full_of_isRounded h₁ hv)
  have hsecond := h₂.mul_le (full_of_isRounded h₂ hw)
  have ha : (0 : ℚ) ≤ m₁ * 2 ^ e₁ := by positivity
  have hb : (0 : ℚ) ≤ m₂ * 2 ^ e₂ := by positivity
  have hlimit : (0 : ℚ) < 2 ^ 1024 := by positivity
  rw [safeMagnitude_eq] at hle
  rw [largest_eq]
  generalize (2 : ℚ) ^ 1024 = limit at hle hlimit ⊢
  generalize (m₁ : ℚ) * 2 ^ e₁ = a at hfirst ha ⊢
  generalize (m₂ : ℚ) * 2 ^ e₂ = b at hsecond hb ⊢
  by_contra hlarge
  -- Three factors of `1 - 1 / 2 ^ 53` take away less than three parts in `2 ^ 53`.
  have hproduct : a * b * (1 - 1 / 2 ^ 53) ^ 2 ≤ v * w :=
    calc a * b * (1 - 1 / 2 ^ 53) ^ 2
      _ = a * (1 - 1 / 2 ^ 53) * (b * (1 - 1 / 2 ^ 53)) := by ring
      _ ≤ v * w := mul_le_mul hfirst hsecond (mul_nonneg hb (by norm_num)) (by linarith)
  have hcube : limit * (1 - 1 / 2 ^ 53) ^ 3 ≤ limit * (1 - 3 / 2 ^ 53) :=
    calc limit * (1 - 1 / 2 ^ 53) ^ 3
      _ = limit * (1 - 1 / 2 ^ 53) * (1 - 1 / 2 ^ 53) ^ 2 := by ring
      _ ≤ a * b * (1 - 1 / 2 ^ 53) ^ 2 :=
        mul_le_mul_of_nonneg_right (not_lt.1 hlarge) (by positivity)
      _ ≤ limit * (1 - 3 / 2 ^ 53) := hproduct.trans hle
  have hfactor := le_of_mul_le_mul_left hcube hlimit
  norm_num at hfactor

/-! ## Powers of ten -/

theorem nearest_powerOfTen (e : ℕ) : Nearest (10 ^ e) (powerOfTen e).toModel.unpack := by
  have hnearest := nearest_toFloat ⟨1, e⟩
  rwa [value, Nat.cast_one, one_mul, zpow_natCast] at hnearest

/-- Only a number below one can be too small for a double other than zero. -/
theorem lt_one_of_nearest_zero {v : ℚ} {sign : Sign} (h : Nearest v (.zero sign)) : v < 1 := by
  cases h with
  | zero nonneg le =>
    have : (2 : ℚ) ^ (-1074 : ℤ) ≤ 2 ^ (0 : ℤ) := zpow_le_zpow_right₀ (by norm_num) (by norm_num)
    rw [zpow_zero] at this
    linarith

/-- The double of a whole number. -/
theorem nearest_whole (c : ℕ) : Nearest (c : ℚ) (⟨c, 0⟩ : Decimal).toFloat.toModel.unpack := by
  have hnearest := nearest_toFloat ⟨c, 0⟩
  rwa [value, zpow_zero, mul_one] at hnearest

/-- What is divided by a power of ten does not grow, up to rounding. -/
theorem exists_nearest_div {w : ℚ} {a : Float} (h : Nearest w a.toModel.unpack)
    (hw : w < largest) (j : ℕ) :
    ∃ v, Nearest v (a / powerOfTen j).toModel.unpack ∧ v ≤ 3 * w := by
  have hdiv : (a / powerOfTen j).toModel.unpack = (Float.Model.pack
      (UnpackedFloat.div .binary64 a.toModel.unpack (powerOfTen j).toModel.unpack)).unpack := rfl
  have hpower := nearest_powerOfTen j
  have hone : (1 : ℚ) ≤ 10 ^ j := one_le_pow₀ (by norm_num)
  have hnonneg := h.nonneg
  have hzero : Nearest 0 (Float.Model.pack (.zero .positive)).unpack := by
    rw [unpack_pack_zero]
    exact .zero le_rfl (by positivity)
  rw [hdiv]
  generalize hb : (powerOfTen j).toModel.unpack = b at hpower
  generalize ha : a.toModel.unpack = u at h
  cases hpower with
  | zero nonneg le => exact absurd (lt_one_of_nearest_zero (.zero nonneg le)) hone.not_gt
  -- Divided by a power that is infinite, everything is zero.
  | infinity ge =>
    refine ⟨0, ?_, by linarith⟩
    cases h with
    | zero nonneg le => exact hzero
    | finite rounded le => exact hzero
    | infinity ge => exact absurd hw ge.not_gt
  | @finite m₂ e₂ rounded₂ le₂ =>
    cases h with
    | zero nonneg le => exact ⟨0, hzero, by linarith⟩
    | infinity ge => exact absurd hw ge.not_gt
    | @finite m₁ e₁ rounded₁ le₁ =>
      -- Rounding at most doubles the number, and takes a third away from the power at most.
      have hquotient := nearest_div ha hb
      refine ⟨m₁ * 2 ^ e₁ / (m₂ * 2 ^ e₂), ?_, ?_⟩
      · rw [← ha, ← hb]
        exact hquotient
      · have hupper := rounded₁.bounds.1
        have hlower := rounded₂.bounds.2
        rw [div_le_iff₀ (by linarith)]
        nlinarith

/-! ## Scaled coefficients -/

/-- A word multiplied with a power of ten is finite if the product is safe. -/
theorem exists_nearest_mul {c e : ℕ} (hc : c ≠ 0) (hsafe : (c : ℚ) * 10 ^ e ≤ safeMagnitude) :
    ∃ v, Nearest v ((⟨c, 0⟩ : Decimal).toFloat * powerOfTen e).toModel.unpack ∧
      v < largest := by
  have hx := nearest_whole c
  have hpower := nearest_powerOfTen e
  have hone : (1 : ℚ) ≤ c := by exact_mod_cast Nat.pos_of_ne_zero hc
  have hten : (1 : ℚ) ≤ 10 ^ e := one_le_pow₀ (by norm_num)
  -- Neither factor is larger than their product, so both of them are finite.
  have hc_lt :=
    ((le_mul_of_one_le_right (by linarith) hten).trans hsafe).trans_lt safeMagnitude_lt_largest
  have hten_lt :=
    ((le_mul_of_one_le_left (by linarith) hone).trans hsafe).trans_lt safeMagnitude_lt_largest
  generalize ha : (⟨c, 0⟩ : Decimal).toFloat.toModel.unpack = u at hx
  generalize hb : (powerOfTen e).toModel.unpack = w at hpower
  cases hx with
  | zero nonneg le => exact absurd (lt_one_of_nearest_zero (.zero nonneg le)) hone.not_gt
  | infinity ge => exact absurd hc_lt ge.not_gt
  | @finite m₁ e₁ rounded₁ le₁ =>
    cases hpower with
    | zero nonneg le => exact absurd (lt_one_of_nearest_zero (.zero nonneg le)) hten.not_gt
    | infinity ge => exact absurd hten_lt ge.not_gt
    | @finite m₂ e₂ rounded₂ le₂ =>
      exact ⟨m₁ * 2 ^ e₁ * (m₂ * 2 ^ e₂),
        nearest_mul rounded₁.toAligned rounded₂.toAligned ha hb,
        mul_lt_of_isRounded rounded₁ rounded₂ hone hten hsafe⟩

/-- What a coefficient is scaled to is not negative, and it is finite if the number is safe. -/
theorem exists_nearest_scaled {d : Decimal} (hword : d.coefficient < UInt64.size)
    (hsafe : d.value ≤ safeMagnitude) :
    ∃ v, Nearest v d.scaled.toModel.unpack ∧ v < largest := by
  obtain ⟨c, exponent⟩ := d
  have hx := nearest_whole c
  -- Even when rounding makes a word larger, it is far from being infinite.
  have hsmall : 9 * (c : ℚ) < largest := by
    have hc : (c : ℚ) < 2 ^ 64 := by exact_mod_cast hword
    calc 9 * (c : ℚ)
      _ ≤ (2 ^ 53 - 1) * 2 ^ 64 := by linarith
      _ < largest :=
        mul_lt_mul_of_pos_left (pow_lt_pow_right₀ (by norm_num) (by norm_num)) (by norm_num)
  have hnonneg : (0 : ℚ) ≤ c := Nat.cast_nonneg c
  cases exponent with
  | ofNat e =>
    simp only [scaled]
    -- Zero is not multiplied, as the power of ten may be infinite.
    by_cases hc : c = 0
    · rw [if_pos hc]
      exact ⟨c, hx, by linarith⟩
    · rw [if_neg hc]
      rw [value, Int.ofNat_eq_natCast, zpow_natCast] at hsafe
      exact exists_nearest_mul hc hsafe
  | negSucc e =>
    simp only [scaled]
    by_cases hlt : e < maxPower
    · rw [if_pos hlt]
      obtain ⟨v, hv, hle⟩ := exists_nearest_div hx (by linarith) (e + 1)
      exact ⟨v, hv, by linarith⟩
    -- Each of two divisions makes the bound three times as large at most.
    · rw [if_neg hlt]
      obtain ⟨w, hw, hwle⟩ := exists_nearest_div hx (by linarith) maxPower
      obtain ⟨v, hv, hvle⟩ := exists_nearest_div hw (by linarith) (e + 1 - maxPower)
      exact ⟨v, hv, by linarith⟩

/-! ## Digits that are taken over -/

theorem takeDigits_cons (n : ℕ) (c : Char) (ds : List Char) :
    takeDigits n (c :: ds) =
      if 10 * n + (c.toNat - '0'.toNat) < UInt64.size then
        takeDigits (10 * n + (c.toNat - '0'.toNat)) ds
      else (n, c :: ds) :=
  rfl

/-- There is always room for what is taken over. -/
theorem takeDigits_lt {n : ℕ} (h : n < UInt64.size) (ds : List Char) :
    (takeDigits n ds).1 < UInt64.size := by
  induction ds generalizing n with
  | nil => exact h
  | cons c ds ih =>
    rw [takeDigits_cons]
    split
    · next hroom => exact ih hroom
    · exact h

/-- Either all digits are taken over, or there is no room for the next one. -/
theorem takeDigits_cases (n : ℕ) (ds : List Char) :
    takeDigits n ds = (Nat.ofDigitChars 10 ds n, []) ∨
      ∃ k c rest, takeDigits n ds = (k, c :: rest) ∧ c ∈ ds ∧
        UInt64.size ≤ 10 * k + (c.toNat - '0'.toNat) ∧
        Nat.ofDigitChars 10 ds n = Nat.ofDigitChars 10 rest (10 * k + (c.toNat - '0'.toNat)) := by
  induction ds generalizing n with
  | nil => exact .inl rfl
  | cons c ds ih =>
    rw [takeDigits_cons]
    split
    · next hroom =>
      rcases ih (10 * n + (c.toNat - '0'.toNat)) with
        hall | ⟨k, d, rest, htake, hmem, hfull, hvalue⟩
      · exact .inl hall
      · exact .inr ⟨k, d, rest, htake, List.mem_cons_of_mem c hmem, hfull, hvalue⟩
    · next hroom => exact .inr ⟨n, c, ds, rfl, List.mem_cons_self, not_lt.1 hroom, rfl⟩

/-- Where there was no room for a digit, there is for one more at most, and this is a smaller
one. -/
theorem takeDigits_mul_le_of_full {k c : ℕ} (hc : c < 10) (hfull : UInt64.size ≤ 10 * k + c)
    (ds : List Char) :
    (takeDigits k ds).1 * 10 ^ ((takeDigits k ds).2.length + 1) ≤
      (10 * k + c) * 10 ^ ds.length := by
  have hskipped : k * 10 ^ (ds.length + 1) ≤ (10 * k + c) * 10 ^ ds.length := by
    rw [pow_succ', ← mul_assoc, mul_comm k]
    exact Nat.mul_le_mul_right _ (Nat.le_add_right _ _)
  cases ds with
  | nil => exact hskipped
  | cons d ds =>
    rw [takeDigits_cons]
    split
    · next hroom =>
      have hnext : takeDigits (10 * k + (d.toNat - '0'.toNat)) ds =
          (10 * k + (d.toNat - '0'.toNat), ds) := by
        -- Ten times a number that is almost too large is too large.
        cases ds with
        | nil => rfl
        | cons e ds =>
          have hsize : 90 ≤ 9 * UInt64.size := by decide
          refine if_neg ?_
          omega
      rw [hnext, List.length_cons]
      exact Nat.mul_le_mul_right _ (by omega)
    · exact hskipped

/-- Digits that are left out count as zeros, so what is taken over from two lists of digits is not
more than what they stand for. -/
theorem takeDigits_takeDigits_le {ds : List Char} (hds : ∀ c ∈ ds, c.isDigit = true)
    (es : List Char) :
    (takeDigits (takeDigits 0 ds).1 es).1 *
        10 ^ ((takeDigits 0 ds).2.length + (takeDigits (takeDigits 0 ds).1 es).2.length) ≤
      natOfDigits (ds ++ es) := by
  change _ ≤ Nat.ofDigitChars 10 (ds ++ es) 0
  rw [Nat.ofDigitChars_append]
  rcases takeDigits_cases 0 ds with hall | ⟨k, c, rest, htake, hmem, hfull, hvalue⟩
  · rw [hall, List.length_nil, Nat.zero_add]
    generalize Nat.ofDigitChars 10 ds 0 = n
    rcases takeDigits_cases n es with hall | ⟨k, c, rest, htake, -, -, hvalue⟩
    · rw [hall, List.length_nil, pow_zero, Nat.mul_one]
    · rw [htake, hvalue]
      refine le_trans ?_ (mul_le_ofDigitChars _ _)
      rw [List.length_cons, pow_succ', ← mul_assoc, mul_comm k]
      exact Nat.mul_le_mul_right _ (Nat.le_add_right _ _)
  · -- The digit that is skipped is worth more than the one that may be taken over behind it.
    have hskipped := takeDigits_mul_le_of_full (digits_of_isDigit (hds c hmem)).1 hfull es
    rw [htake, hvalue]
    generalize 10 * k + (c.toNat - '0'.toNat) = next at hskipped ⊢
    generalize takeDigits k es = taken at hskipped ⊢
    calc taken.1 * 10 ^ ((c :: rest).length + taken.2.length)
      _ = taken.1 * 10 ^ (taken.2.length + 1) * 10 ^ rest.length := by
        rw [List.length_cons, mul_assoc, ← pow_add]
        congr 2
        omega
      _ ≤ next * 10 ^ es.length * 10 ^ rest.length := Nat.mul_le_mul_right _ hskipped
      _ = next * 10 ^ rest.length * 10 ^ es.length := Nat.mul_right_comm _ _ _
      _ ≤ Nat.ofDigitChars 10 rest next * 10 ^ es.length :=
        Nat.mul_le_mul_right _ (mul_le_ofDigitChars next rest)
      _ ≤ Nat.ofDigitChars 10 es (Nat.ofDigitChars 10 rest next) := mul_le_ofDigitChars _ es

end RunTrace.Decimal
