import Mathlib
import RunTrace.Decimal.Basic

/-!
# The bits of doubles

A double is made of a sign, a biased exponent and a fraction. Arithmetic unpacks these into a
sign, a significand and an exponent, and packs them again. Here the fields are read off as
numbers, which shows that what is unpacked are the parts of the double, and that nothing is
lost on the way there and back.

## Main results

* `unpack_cases`: a finite double is zero, or unpacked into parts that fit the format;
* `pack_unpack`: packing what was unpacked restores a double;
* `unpack_pack_finite`: unpacking what was packed restores parts that fit the format.
-/

namespace RunTrace

open Float.Model (Format UnpackedFloat)
open Float.Model.UnpackedFloat

/-- The sign of the parts of a double. -/
def BinaryParts.sign (parts : BinaryParts) : Sign :=
  if parts.negative then .negative else .positive

namespace Packing

/-- A significand and an exponent as rounding leaves them: the exponent is as low as it can be
without losing significant bits. -/
structure Aligned (m : Nat) (e : Int) : Prop where
  pos : 0 < m
  lt : m < 2 ^ 53
  ge : -1074 ≤ e
  /-- Either all bits of the significand are in use, or the exponent is the lowest one. -/
  full : 2 ^ 52 ≤ m ∨ e = -1074

/-- A significand and an exponent as the format has them. -/
structure Fits (m : Nat) (e : Int) : Prop extends Aligned m e where
  /-- Larger exponents are infinite. -/
  le : e ≤ 971

/-! ## Fields -/

section Fields

variable (bits : UInt64)

/-- The fraction field. -/
def fraction : Nat := bits.toNat % 2 ^ 52

/-- The field of the biased exponent. -/
def biased : Nat := bits.toNat / 2 ^ 52 % 2 ^ 11

theorem fraction_lt : fraction bits < 2 ^ 52 :=
  Nat.mod_lt _ (by decide)

theorem biased_lt : biased bits < 2 ^ 11 :=
  Nat.mod_lt _ (by decide)

theorem negative_ofBits :
    (BinaryParts.ofBits bits).negative = decide (2 ^ 63 ≤ bits.toNat) := by
  have hlt := bits.toNat_lt
  -- Only the sign is left of the bits when the other 63 are shifted out.
  have htop : bits >>> 63 = 1 ↔ 2 ^ 63 ≤ bits.toNat := by
    rw [← UInt64.toNat_inj, UInt64.toNat_shiftRight, Nat.shiftRight_eq_div_pow]
    change bits.toNat / 2 ^ 63 = 1 ↔ _
    omega
  rw [Bool.eq_iff_iff, decide_eq_true_iff, ← htop]
  exact beq_iff_eq

/-- Behind the shift there are the sign and the biased exponent. -/
theorem toNat_shiftRight_fraction : (bits >>> 52).toNat = bits.toNat / 2 ^ 52 := by
  rw [UInt64.toNat_shiftRight, Nat.shiftRight_eq_div_pow]
  rfl

theorem significand_ofBits :
    (BinaryParts.ofBits bits).significand =
      if biased bits = 0 then fraction bits else fraction bits + 2 ^ 52 := by
  simp only [BinaryParts.ofBits, toNat_shiftRight_fraction]
  rfl

theorem exponent_ofBits :
    (BinaryParts.ofBits bits).exponent =
      if biased bits = 0 then -1074 else (biased bits : Int) - 1075 := by
  simp only [BinaryParts.ofBits, toNat_shiftRight_fraction]
  rfl

/-- The bits are those of the three fields. -/
theorem toNat_eq_fields :
    bits.toNat =
      (BinaryParts.ofBits bits).sign.toBitVec.toNat * 2 ^ 63 + biased bits * 2 ^ 52 +
        fraction bits := by
  have hlt := bits.toNat_lt
  have hsign : (BinaryParts.ofBits bits).sign.toBitVec.toNat = bits.toNat / 2 ^ 63 := by
    rw [BinaryParts.sign, negative_ofBits]
    by_cases h : 2 ^ 63 ≤ bits.toNat
    · rw [decide_eq_true h]
      change 1 = _
      omega
    · rw [decide_eq_false h]
      change 0 = _
      omega
  rw [hsign, biased, fraction]
  omega

end Fields

/-- Fields are determined by the bits. -/
theorem fields_inj {s s' : Sign} {e e' f f' : Nat} (he : e < 2 ^ 11) (he' : e' < 2 ^ 11)
    (hf : f < 2 ^ 52) (hf' : f' < 2 ^ 52)
    (h : s.toBitVec.toNat * 2 ^ 63 + e * 2 ^ 52 + f =
      s'.toBitVec.toNat * 2 ^ 63 + e' * 2 ^ 52 + f') :
    s = s' ∧ e = e' ∧ f = f' := by
  cases s <;> cases s' <;> simp [Sign.toBitVec] at * <;> omega

/-! ## Unpacking -/

section Unpacking

variable (bits : UInt64)

/-- The bits, as a vector of the length that the format has. -/
abbrev vector : BitVec Format.binary64.numBits := bits.toBitVec

theorem toNat_unpackMantissa : (unpackMantissa (vector bits)).toNat = fraction bits := by
  simp [unpackMantissa, fraction]

theorem toNat_unpackExponent : (unpackExponent (vector bits)).toNat = biased bits := by
  simp [unpackExponent, Nat.shiftRight_eq_div_pow, biased]

theorem ofBitVec_unpackSign :
    Sign.ofBitVec (unpackSign (vector bits)) = (BinaryParts.ofBits bits).sign := by
  have hlt := bits.toNat_lt
  have hzero : unpackSign (vector bits) = 0#1 ↔ ¬ 2 ^ 63 ≤ bits.toNat := by
    have hmod : (unpackSign (vector bits)).toNat = bits.toNat / 2 ^ 63 % 2 := by
      simp [unpackSign, Nat.shiftRight_eq_div_pow]
    rw [← BitVec.toNat_inj, hmod]
    change _ = 0 ↔ _
    omega
  rw [BinaryParts.sign, negative_ofBits, Sign.ofBitVec]
  by_cases h : 2 ^ 63 ≤ bits.toNat
  · rw [if_neg (fun hlow => hzero.1 hlow h), decide_eq_true h, if_pos rfl]
  · rw [if_pos (hzero.2 h), decide_eq_false h, if_neg Bool.false_ne_true]

/-- Unpacking, in terms of the fields as numbers. -/
theorem unpack_eq :
    unpack .binary64 (vector bits) =
      if biased bits = 2047 then
        if fraction bits = 0 then .infinity (BinaryParts.ofBits bits).sign else .notANumber
      else if biased bits = 0 then
        if h : fraction bits = 0 then .zero (BinaryParts.ofBits bits).sign
        else
          .finite (BinaryParts.ofBits bits).sign (fraction bits) (-1074) (Nat.pos_of_ne_zero h)
      else
        .finite (BinaryParts.ofBits bits).sign (2 ^ 52 + fraction bits) (biased bits - 1075)
          (Nat.add_pos_left (by decide) _) := by
  -- The format compares its fields as bit vectors; the fields as numbers say the same.
  have hones : unpackExponent (vector bits) = -1#11 ↔ biased bits = 2047 := by
    rw [← BitVec.toNat_inj, toNat_unpackExponent]
    rfl
  have hexponent : unpackExponent (vector bits) = 0#11 ↔ biased bits = 0 := by
    rw [← BitVec.toNat_inj, toNat_unpackExponent]
    rfl
  have hmantissa : unpackMantissa (vector bits) = 0#52 ↔ fraction bits = 0 := by
    rw [← BitVec.toNat_inj, toNat_unpackMantissa]
    rfl
  have himplicit : (1#1 ++ unpackMantissa (vector bits)).toNat = 2 ^ 52 + fraction bits := by
    rw [BitVec.toNat_append, ← Nat.shiftLeft_add_eq_or_of_lt (by omega), toNat_unpackMantissa]
    rfl
  unfold unpack
  simp only [hones, hexponent, hmantissa, himplicit, toNat_unpackExponent, toNat_unpackMantissa,
    ofBitVec_unpackSign]
  split
  · rfl
  · split
    · next hzero =>
      rw [hzero]
      rfl
    · rfl

theorem isFinite_unpack_iff :
    (unpack .binary64 (vector bits)).isFinite = true ↔ biased bits ≠ 2047 := by
  rw [unpack_eq]
  split
  · next h => split <;> simp [UnpackedFloat.isFinite, h]
  · next h =>
    split
    · split <;> simp [UnpackedFloat.isFinite, h]
    · simp [UnpackedFloat.isFinite, h]

variable {bits}

/-- The parts of finite bits fit the format, unless they are zero. -/
theorem fits_ofBits (h : biased bits ≠ 2047) (hne : (BinaryParts.ofBits bits).significand ≠ 0) :
    Fits (BinaryParts.ofBits bits).significand (BinaryParts.ofBits bits).exponent := by
  have hfraction := fraction_lt bits
  have hbiased := biased_lt bits
  have hsignificand := significand_ofBits bits
  have hexponent := exponent_ofBits bits
  -- With a biased exponent of zero the leading bit is not implied, and the exponent is the lowest.
  by_cases hlow : biased bits = 0
  · rw [if_pos hlow] at hsignificand hexponent
    exact ⟨⟨by omega, by omega, by omega, .inr hexponent⟩, by omega⟩
  · rw [if_neg hlow] at hsignificand hexponent
    exact ⟨⟨by omega, by omega, by omega, .inl (by omega)⟩, by omega⟩

/-- What is unpacked from finite bits are their parts. -/
theorem unpack_vector (h : biased bits ≠ 2047) :
    unpack .binary64 (vector bits) =
      if hzero : (BinaryParts.ofBits bits).significand = 0 then
        .zero (BinaryParts.ofBits bits).sign
      else
        .finite (BinaryParts.ofBits bits).sign (BinaryParts.ofBits bits).significand
          (BinaryParts.ofBits bits).exponent (Nat.pos_of_ne_zero hzero) := by
  have hsignificand := significand_ofBits bits
  have hexponent := exponent_ofBits bits
  rw [unpack_eq, if_neg h]
  by_cases hlow : biased bits = 0
  · rw [if_pos hlow] at hsignificand hexponent
    rw [if_pos hlow]
    by_cases hzero : fraction bits = 0
    · rw [dif_pos hzero, dif_pos (by omega)]
    · rw [dif_neg hzero, dif_neg (by omega), UnpackedFloat.finite.injEq]
      exact ⟨rfl, hsignificand.symm, hexponent.symm⟩
  · rw [if_neg hlow] at hsignificand hexponent
    rw [if_neg hlow, dif_neg (by omega), UnpackedFloat.finite.injEq]
    exact ⟨rfl, by omega, hexponent.symm⟩

end Unpacking

/-! ## Packing -/

theorem toNat_packComponents (sign : Sign) (exponent : BitVec 11) (mantissa : BitVec 52) :
    (packComponents .binary64 sign exponent mantissa).toNat =
      sign.toBitVec.toNat * 2 ^ 63 + exponent.toNat * 2 ^ 52 + mantissa.toNat := by
  have hmantissa := mantissa.isLt
  have hexponent := exponent.isLt
  simp only [packComponents, BitVec.toNat_append]
  rw [← Nat.shiftLeft_add_eq_or_of_lt (by omega), ← Nat.shiftLeft_add_eq_or_of_lt (by omega),
    Nat.shiftLeft_eq, Nat.shiftLeft_eq]
  omega

theorem biased_eq (e : Int) :
    (e + ((Format.binary64.exponentBias : Nat) : Int) + (52 : Nat)).toNat = (e + 1075).toNat := by
  change (e + 1023 + 52).toNat = _
  omega

/-- The fields of parts that fit the format. -/
theorem toNat_pack_finite {sign : Sign} {m : Nat} {e : Int} (fits : Fits m e) :
    (pack .binary64 (.finite sign m e fits.pos)).toNat =
      sign.toBitVec.toNat * 2 ^ 63 + (if 2 ^ 52 ≤ m then (e + 1075).toNat else 0) * 2 ^ 52 +
        m % 2 ^ 52 := by
  have hne := Nat.ne_of_gt fits.pos
  have hle := fits.le
  -- A significand with a logarithm of 52 is one that uses all of its 53 bits.
  have hlog : m.log2 + 1 = 53 ↔ 2 ^ 52 ≤ m := by
    rw [← Nat.le_log2 hne]
    have := (Nat.log2_lt hne).2 fits.lt
    omega
  have hroom : ¬ 2 ^ 11 ≤ (e + 1075).toNat + 1 := by omega
  have hbits : Format.binary64.mantissaBits = 53 := rfl
  simp only [pack, biased_eq, hroom, hbits, hlog, if_false]
  -- Only a significand that uses all of its bits is stored with a biased exponent.
  split
  · rw [toNat_packComponents, BitVec.toNat_ofNat, BitVec.toNat_ofNat]
    omega
  · rw [toNat_packComponents, BitVec.toNat_ofNat]
    rfl

/-! ## There and back -/

/-- A finite double is zero, or unpacked into parts that fit the format. -/
theorem unpack_cases {f : Float.Model} (h : f.isFinite = true) :
    ((BinaryParts.ofBits f.toBits).significand = 0 ∧
        f.unpack = .zero (BinaryParts.ofBits f.toBits).sign) ∨
      ∃ fits : Fits (BinaryParts.ofBits f.toBits).significand
          (BinaryParts.ofBits f.toBits).exponent,
        f.unpack = .finite (BinaryParts.ofBits f.toBits).sign
          (BinaryParts.ofBits f.toBits).significand (BinaryParts.ofBits f.toBits).exponent
          fits.pos := by
  have hfinite := (isFinite_unpack_iff f.toBits).1 h
  have hunpack := unpack_vector hfinite
  by_cases hzero : (BinaryParts.ofBits f.toBits).significand = 0
  · rw [dif_pos hzero] at hunpack
    exact .inl ⟨hzero, hunpack⟩
  · rw [dif_neg hzero] at hunpack
    exact .inr ⟨fits_ofBits hfinite hzero, hunpack⟩

/-- Packing what was unpacked restores a double. -/
theorem pack_unpack (f : Float.Model) : Float.Model.pack f.unpack = f := by
  obtain ⟨bits, valid⟩ := f
  have : UInt64.ofBitVec (pack .binary64 (unpack .binary64 bits.toBitVec)) = bits :=
    UInt64.toBitVec_inj.1 (pack_unpack_of_valid valid)
  simp only [Float.Model.pack, Float.Model.unpack, this]

theorem unpack_pack_zero (sign : Sign) :
    (Float.Model.pack (.zero sign)).unpack = .zero sign :=
  unpack_packedZero

/-- Unpacking what was packed restores parts that fit the format. -/
theorem unpack_pack_finite {sign : Sign} {m : Nat} {e : Int} (fits : Fits m e) :
    (Float.Model.pack (.finite sign m e fits.pos)).unpack = .finite sign m e fits.pos := by
  have hpos := fits.pos
  have hlt := fits.lt
  have hle := fits.le
  have hge := fits.ge
  let bits := UInt64.ofBitVec (pack .binary64 (.finite sign m e fits.pos))
  -- The fields that were packed are those that are unpacked, as they make up the same bits.
  have hfields : bits.toNat = _ := toNat_pack_finite fits
  obtain ⟨hsign, hbiased, hfraction⟩ := fields_inj (by split <;> omega) (biased_lt bits)
    (Nat.mod_lt _ (by decide)) (fraction_lt bits) (hfields.symm.trans (toNat_eq_fields bits))
  change unpack .binary64 (vector bits) = _
  -- The leading bit of a full significand is implied; others have the lowest exponent.
  by_cases hfull : 2 ^ 52 ≤ m
  · rw [if_pos hfull] at hbiased
    rw [unpack_eq, if_neg (by omega), if_neg (by omega), UnpackedFloat.finite.injEq]
    exact ⟨hsign.symm, by omega, by omega⟩
  · rw [if_neg hfull] at hbiased
    have hlow := fits.full.resolve_left hfull
    rw [unpack_eq, if_neg (by omega), if_pos hbiased.symm, dif_neg (by omega),
      UnpackedFloat.finite.injEq]
    exact ⟨hsign.symm, by omega, hlow.symm⟩

/-- What is packed is finite if the exponent is not too large. -/
theorem isFinite_pack_finite {sign : Sign} {m : Nat} {e : Int} (hpos : 0 < m) (hle : e ≤ 971) :
    (Float.Model.pack (.finite sign m e hpos)).isFinite = true := by
  let bits := UInt64.ofBitVec (pack .binary64 (.finite sign m e hpos))
  have hroom : ¬ 2 ^ 11 ≤ (e + 1075).toNat + 1 := by omega
  -- Only the field of ones is taken for infinity, and a smaller exponent is packed.
  have hexponent : (unpackExponent (pack .binary64 (.finite sign m e hpos))).toNat ≠ 2047 := by
    simp only [pack, biased_eq, hroom, if_false]
    split
    · rw [unpackExponent_packComponents, BitVec.toNat_ofNat]
      omega
    · rw [unpackExponent_packComponents]
      decide
  refine (isFinite_unpack_iff bits).2 ?_
  rw [← toNat_unpackExponent]
  exact hexponent

/-- What is packed is infinite if the exponent is too large. -/
theorem pack_finite_of_lt {sign : Sign} {m : Nat} {e : Int} (hpos : 0 < m) (hlt : 971 < e) :
    Float.Model.pack (.finite sign m e hpos) = Float.Model.pack (.infinity sign) := by
  have hroom : 2 ^ 11 ≤ (e + 1023 + 52).toNat + 1 := by omega
  have hpack : pack .binary64 (.finite sign m e hpos) = packedInfinity .binary64 sign :=
    if_pos hroom
  simp only [Float.Model.pack, hpack]
  rfl

end Packing

open Packing

theorem isFinite_neg {f : Float.Model} (h : f.isFinite = true) : (-f).isFinite = true := by
  change (Float.Model.pack f.unpack.neg).isFinite = true
  rcases unpack_cases h with ⟨-, hunpack⟩ | ⟨fits, hunpack⟩
  · rw [hunpack]
    exact congrArg UnpackedFloat.isFinite (unpack_pack_zero _)
  · rw [hunpack]
    exact isFinite_pack_finite _ fits.le

/-- What is unpacked from the magnitude of a finite double. -/
theorem unpack_abs {f : Float.Model} (h : f.isFinite = true) : f.abs.unpack = f.unpack.abs := by
  change (Float.Model.pack f.unpack.abs).unpack = _
  rcases unpack_cases h with ⟨-, hunpack⟩ | ⟨fits, hunpack⟩
  · rw [hunpack]
    exact unpack_pack_zero .positive
  · rw [hunpack]
    exact unpack_pack_finite fits

end RunTrace
