import RunTrace.Proofs.Decimal.Scaled
import RunTrace.Proofs.Json.NumberValue

/-!
# Doubles that literals are read as

A literal is read as the double that its leading digits are scaled to. This need not be the nearest
one, so a double that was written may be another one when it is read again. But it is never lost:
all literals that are not among the very largest are read as finite doubles, and so is whatever is
written for a finite double.

## Main results

* `isFinite_toFloat_of_safe`: a literal of a safe magnitude is read as a finite double;
* `isFinite_scaled_ofFloat`: so is the literal of any finite double;
* `read_ofFloat`: this literal is read as the double that it was written for, or as another one;
* `isFinite_of_read`: whatever is read is finite.
-/

namespace RunTrace.Json.NumberLiteral

open Decimal Packing
open Float.Model (UnpackedFloat)
open Float.Model.UnpackedFloat

/-! ## Leading digits -/

theorem leading_coefficient_lt (literal : NumberLiteral) :
    literal.leading.coefficient < UInt64.size :=
  takeDigits_lt (takeDigits_lt (by decide) _) _

/-- The leading digits never stand for more than all of them. -/
theorem leading_value_le {literal : NumberLiteral} (h : ∀ c ∈ literal.whole, c.isDigit = true) :
    literal.leading.value ≤ literal.magnitude.value := by
  have hle := takeDigits_takeDigits_le h (literal.fraction.getD [])
  have hunit : (0 : ℚ) < 10 ^ literal.magnitude.exponent := zpow_pos (by norm_num) _
  change (((takeDigits _ _).1 : ℕ) : ℚ) * 10 ^ (literal.magnitude.exponent + (_ + _ : ℕ)) ≤
    (natOfDigits (literal.whole ++ literal.fraction.getD []) : ℚ) * 10 ^ literal.magnitude.exponent
  rw [add_comm, zpow_add₀ (by norm_num), zpow_natCast, ← mul_assoc]
  exact mul_le_mul_of_nonneg_right (by exact_mod_cast hle) hunit.le

/-- All digits are leading ones if they stand for a word. -/
theorem leading_of_lt {literal : NumberLiteral} (hfraction : literal.fraction = none)
    (h : natOfDigits literal.whole < UInt64.size) : literal.leading = literal.magnitude := by
  have htake : takeDigits 0 literal.whole = (natOfDigits literal.whole, []) := by
    rcases takeDigits_cases 0 literal.whole with hall | ⟨k, c, rest, -, -, hfull, hvalue⟩
    · exact hall
    -- If a digit was left out, the digits up to it are no word, and even less so all of them.
    · have hle := le_ofDigitChars rest (10 * k + (c.toNat - '0'.toNat))
      rw [← hvalue] at hle
      exact absurd (hfull.trans hle) h.not_ge
  simp [leading, magnitude, htake, hfraction, takeDigits]

/-! ## Safe literals -/

/-- The sign of a literal does not matter to whether its double is finite. -/
theorem isFinite_toFloat {literal : NumberLiteral}
    (h : literal.leading.scaled.isFinite = true) : literal.toFloat.isFinite = true := by
  rw [toFloat]
  split
  · exact isFinite_neg h
  · exact h

/-- Doubles are compared by what they are unpacked into. -/
theorem lt_zero_iff (x : Float) : x < 0 ↔ x.toModel.unpack.lt (.zero .positive) = true :=
  decide_eq_true_iff

/-- What is safe is scaled to a finite double that is not negative. -/
theorem isFinite_scaled_of_safe {literal : NumberLiteral}
    (hsafe : literal.leading.value ≤ safeMagnitude) :
    literal.leading.scaled.isFinite = true ∧ ¬ literal.leading.scaled < 0 := by
  obtain ⟨v, hnearest, hlt⟩ := exists_nearest_scaled literal.leading_coefficient_lt hsafe
  refine ⟨hnearest.isFinite hlt, ?_⟩
  rw [lt_zero_iff, hnearest.not_lt]
  exact Bool.false_ne_true

/-- A literal of a safe magnitude is read as a finite double. -/
theorem isFinite_toFloat_of_safe {literal : NumberLiteral}
    (hdigits : ∀ c ∈ literal.whole, c.isDigit = true)
    (hsafe : literal.magnitude.value ≤ safeMagnitude) : literal.toFloat.isFinite = true :=
  isFinite_toFloat (isFinite_scaled_of_safe ((leading_value_le hdigits).trans hsafe)).1

theorem two_pow_le_safeMagnitude : (2 : ℚ) ^ 1023 ≤ safeMagnitude := by
  have hpower : (2 : ℚ) ^ 1023 = 2 ^ 52 * 2 ^ 971 := by rw [← pow_add]
  rw [hpower]
  exact mul_le_mul_of_nonneg_right (by norm_num) (by positivity)

/-! ## Written doubles -/

section Written

variable {f : Float.Model} {sign : Sign} {m : ℕ} {e : ℤ}

theorem isFinite_of_unpack {hpos : 0 < m} (hunpack : f.unpack = .finite sign m e hpos) :
    f.isFinite = true := by
  rw [Float.Model.isFinite, hunpack]
  rfl

theorem unpack_abs_of_unpack {hpos : 0 < m} (hunpack : f.unpack = .finite sign m e hpos) :
    f.abs.unpack = .finite .positive m e hpos := by
  rw [unpack_abs (isFinite_of_unpack hunpack), hunpack]
  rfl

/-- The shortest number is at most half a unit of the last place above its double. -/
theorem value_shortest_le (tie : Tie) (fits : Fits m e)
    (hunpack : f.unpack = .finite sign m e fits.pos) :
    (shortest tie ⟨f⟩).value ≤ (m + 1 / 2) * 2 ^ e := by
  have hnearest := nearest_toFloat (shortest tie ⟨f⟩)
  have habs : (⟨f⟩ : Float).abs.toModel.unpack = _ := unpack_abs_of_unpack hunpack
  rw [toFloat_shortest tie (isFinite_of_unpack hunpack), habs] at hnearest
  cases hnearest with
  | finite rounded le =>
    have := (abs_le.1 rounded.near).1
    linarith

/-- All but the three largest doubles are safe, even with half a unit on top. -/
theorem safe_of_fits (fits : Fits m e) (hsmall : e < 971 ∨ m + 4 ≤ 2 ^ 53) :
    ((m : ℚ) + 1 / 2) * 2 ^ e ≤ safeMagnitude := by
  have hm : (m : ℚ) + 1 ≤ 2 ^ 53 := by exact_mod_cast fits.lt
  rcases hsmall with hlt | hle
  · calc ((m : ℚ) + 1 / 2) * 2 ^ e
      _ ≤ 2 ^ 53 * 2 ^ (970 : ℤ) :=
        mul_le_mul (by linarith) (zpow_le_zpow_right₀ (by norm_num) (by omega))
          (zpow_pos (by norm_num) e).le (by norm_num)
      _ = 2 ^ 1023 := by rw [← zpow_natCast, ← zpow_natCast, ← zpow_add₀ (by norm_num)]; rfl
      _ ≤ safeMagnitude := two_pow_le_safeMagnitude
  · have hm : (m : ℚ) + 4 ≤ 2 ^ 53 := by exact_mod_cast hle
    have hunit : (2 : ℚ) ^ e ≤ 2 ^ 971 := by
      rw [← zpow_natCast]
      exact zpow_le_zpow_right₀ (by norm_num) fits.le
    exact mul_le_mul (by linarith) hunit (zpow_pos (by norm_num) e).le (by norm_num)

/-- The parts of a double are those that are unpacked. -/
theorem parts_of_unpack {hpos : 0 < m} (hunpack : f.unpack = .finite sign m e hpos) :
    (BinaryParts.ofBits f.toBits).significand = m ∧ (BinaryParts.ofBits f.toBits).exponent = e := by
  rcases unpack_cases (isFinite_of_unpack hunpack) with ⟨-, hzero⟩ | ⟨fits, hparts⟩
  · exact nomatch hunpack.symm.trans hzero
  · obtain ⟨-, hsignificand, hexponent⟩ := UnpackedFloat.finite.inj (hparts.symm.trans hunpack)
    exact ⟨hsignificand, hexponent⟩

theorem ofFloat_abs {hpos : 0 < m} (hunpack : f.unpack = .finite sign m e hpos) :
    Decimal.ofFloat ⟨f.abs⟩ = Decimal.ofFloat ⟨f⟩ := by
  obtain ⟨hsignificand, hexponent⟩ := parts_of_unpack hunpack
  obtain ⟨hsignificand', hexponent'⟩ := parts_of_unpack (unpack_abs_of_unpack hunpack)
  change (BinaryParts.ofBits f.abs.toBits).magnitude = (BinaryParts.ofBits f.toBits).magnitude
  simp only [BinaryParts.magnitude, hsignificand, hexponent, hsignificand', hexponent']

/-- The shortest number of a double is that of its magnitude. -/
theorem shortest_abs (tie : Tie) {hpos : 0 < m} (hunpack : f.unpack = .finite sign m e hpos) :
    shortest tie ⟨f.abs⟩ = shortest tie ⟨f⟩ := by
  have hidem : (⟨f.abs⟩ : Float).abs = (⟨f⟩ : Float).abs := by
    change Float.ofModel (Float.Model.pack f.abs.unpack.abs) = ⟨Float.Model.pack f.unpack.abs⟩
    rw [unpack_abs_of_unpack hunpack, hunpack]
    rfl
  unfold shortest
  rw [ofFloat_abs hunpack, hidem]

/-- The digits that are written do not depend on the sign. -/
theorem leading_ofFloat_abs {hpos : 0 < m} (hunpack : f.unpack = .finite sign m e hpos) :
    (ofFloat ⟨f.abs⟩).leading = (ofFloat ⟨f⟩).leading := by
  unfold ofFloat
  dsimp only
  rw [shortest_abs floatLayout.tie hunpack]
  split <;> simp only [leading, magnitude, writtenExponent]

/-- The three largest doubles are written in a way that is read as a finite double. -/
theorem isFinite_scaled_of_large :
    ∀ m ∈ [2 ^ 53 - 1, 2 ^ 53 - 2, 2 ^ 53 - 3], ∀ hpos : 0 < m,
      (ofFloat ⟨Float.Model.pack (.finite .positive m 971 hpos)⟩).leading.scaled.isFinite = true ∧
        ¬ (ofFloat ⟨Float.Model.pack (.finite .positive m 971 hpos)⟩).leading.scaled < 0 := by
  decide +kernel

end Written

/-- What is written for a finite double is scaled to a finite double that is not negative. -/
theorem isFinite_scaled_ofFloat {x : Float} (h : x.isFinite = true) :
    (ofFloat x).leading.scaled.isFinite = true ∧ ¬ (ofFloat x).leading.scaled < 0 := by
  obtain ⟨f⟩ := x
  have spells := spells_ofFloat ⟨f⟩
  have hleading := leading_value_le spells.spellable.whole.digit
  rcases unpack_cases h with ⟨-, hunpack⟩ | ⟨fits, hunpack⟩
  -- Zero and all but the three largest doubles are safe.
  · refine isFinite_scaled_of_safe (hleading.trans ?_)
    have hnearest := nearest_toFloat (ofFloat ⟨f⟩).magnitude
    have habs : (⟨f⟩ : Float).abs.toModel.unpack = .zero .positive := by
      change f.abs.unpack = _
      rw [unpack_abs h, hunpack]
      rfl
    rw [toFloat_magnitude_ofFloat h, habs] at hnearest
    have hone : (1 : ℚ) ≤ 2 ^ 1023 := one_le_pow₀ (by norm_num)
    exact (lt_one_of_nearest_zero hnearest).le.trans (hone.trans two_pow_le_safeMagnitude)
  · generalize (BinaryParts.ofBits f.toBits).significand = m at fits hunpack
    generalize (BinaryParts.ofBits f.toBits).exponent = e at fits hunpack
    by_cases hsmall : e < 971 ∨ m + 4 ≤ 2 ^ 53
    · refine isFinite_scaled_of_safe (hleading.trans ?_)
      rw [spells.value_eq]
      exact (value_shortest_le floatLayout.tie fits hunpack).trans (safe_of_fits fits hsmall)
    -- The bound does not reach the others, but there are only three of them.
    · rw [not_or] at hsmall
      obtain rfl : e = 971 := le_antisymm fits.le (not_lt.1 hsmall.1)
      have hmem : m ∈ [2 ^ 53 - 1, 2 ^ 53 - 2, 2 ^ 53 - 3] := by
        have := fits.lt
        simp only [List.mem_cons, List.not_mem_nil, or_false]
        omega
      have habs : f.abs = Float.Model.pack (.finite .positive m 971 fits.pos) := by
        change Float.Model.pack f.unpack.abs = _
        rw [hunpack]
        rfl
      rw [← leading_ofFloat_abs hunpack, habs]
      exact isFinite_scaled_of_large m hmem fits.pos

/-- The literal of a finite double is read as a finite double. -/
theorem isFinite_toFloat_ofFloat {x : Float} (h : x.isFinite = true) :
    (ofFloat x).toFloat.isFinite = true :=
  isFinite_toFloat (isFinite_scaled_ofFloat h).1

/-- A literal with a point or an exponent is read as its double if that is finite. -/
theorem read_of_isFinite {literal : NumberLiteral} (hinteger : literal.integer? = none)
    (h : literal.toFloat.isFinite = true) : literal.read = .ok (.floating literal.toFloat) := by
  simp only [read, hinteger]
  rw [if_pos h]

/-- The literal of a finite double is read as a double. -/
theorem read_ofFloat {x : Float} (h : x.isFinite = true) :
    (ofFloat x).read = .ok (.floating (ofFloat x).toFloat) := by
  -- A point or an exponent keeps the literal from being taken for an integer.
  have hinteger : (ofFloat x).integer? = none := by
    unfold integer?
    split
    · next hfraction hexponent =>
      rcases (spells_ofFloat x).marked with hmark | hmark
      · exact absurd hfraction hmark
      · exact absurd hexponent hmark
    · rfl
  exact read_of_isFinite hinteger (isFinite_toFloat_ofFloat h)

/-- A zero is read again with its sign. -/
theorem toFloat_ofFloat_zero (sign : Sign) :
    (ofFloat ⟨Float.Model.pack (.zero sign)⟩).toFloat = ⟨Float.Model.pack (.zero sign)⟩ := by
  cases sign with
  | positive => decide +kernel
  | negative => decide +kernel

/-- What is written for a double that is not negative is not read as a negative one. -/
theorem not_lt_toFloat_ofFloat {x : Float} (h : x.isFinite = true) (hnonneg : ¬ x < 0) :
    ¬ (ofFloat x).toFloat < 0 := by
  obtain ⟨f⟩ := x
  rcases unpack_cases h with ⟨-, hunpack⟩ | ⟨fits, hunpack⟩
  -- Only a zero that is not negative can have a sign.
  · have hrestore := pack_unpack f
    rw [hunpack] at hrestore
    rw [← hrestore] at hnonneg ⊢
    rwa [toFloat_ofFloat_zero]
  · have hsign : signBit ⟨f⟩ = false := by
      by_contra hsign
      have hnegative : (BinaryParts.ofBits f.toBits).sign = .negative :=
        if_pos (Bool.eq_true_of_not_eq_false hsign)
      rw [lt_zero_iff, hunpack, hnegative] at hnonneg
      exact hnonneg rfl
    have htoFloat : (ofFloat ⟨f⟩).toFloat = (ofFloat ⟨f⟩).leading.scaled := by
      rw [toFloat, (spells_ofFloat ⟨f⟩).negative, hsign, if_neg Bool.false_ne_true]
    rw [htoFloat]
    exact (isFinite_scaled_ofFloat h).2

/-! ## What is read -/

/-- The double of an integer in range is finite. -/
theorem isFinite_of_integer {literal : NumberLiteral} {value : ℤ}
    (h : literal.integer? = some value) : literal.toFloat.isFinite = true := by
  unfold integer? at h
  split at h
  · next hfraction hexponent =>
    have hmagnitude : literal.magnitude = ⟨natOfDigits literal.whole, 0⟩ := by
      simp [magnitude, writtenExponent, hfraction, hexponent]
    -- With or without a sign, the digits stand for less than `2 ^ 64`.
    have hword : natOfDigits literal.whole < UInt64.size := by
      dsimp only at h
      split at h
      · split at h
        · next hrange =>
          have : (-9223372036854775808 : ℤ) ≤ -(natOfDigits literal.whole : ℤ) := hrange.2
          change natOfDigits literal.whole < 2 ^ 64
          omega
        · contradiction
      · split at h
        · next hrange => exact hrange
        · contradiction
    refine isFinite_toFloat (isFinite_scaled_of_safe ?_).1
    rw [leading_of_lt hfraction hword, hmagnitude, Decimal.value, zpow_zero, mul_one]
    have hlt : (natOfDigits literal.whole : ℚ) < 2 ^ 64 := by exact_mod_cast hword
    exact hlt.le.trans ((pow_le_pow_right₀ (by norm_num) (by norm_num)).trans
      two_pow_le_safeMagnitude)
  · contradiction

/-- Whatever number is read, its double is finite. -/
theorem isFinite_of_read {literal : NumberLiteral} {number : Number}
    (h : literal.read = .ok number) : literal.toFloat.isFinite = true := by
  unfold read at h
  split at h
  · next hinteger => exact isFinite_of_integer hinteger
  · split at h
    · next hfinite => exact hfinite
    · contradiction

end RunTrace.Json.NumberLiteral
