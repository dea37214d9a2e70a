import RunTrace.Proofs.Decimal.ReadBack
import RunTrace.Proofs.Json.NumberLiteral

/-!
# Numbers, written

The literals that write integers and doubles spell what they write. A double is written with its
shortest digits, laid out around a point or in front of an exponent; both spell the same decimal
number, to which the double is the nearest one.

## Main results

* `NumberLiteral.read_ofNat`: the literal of a 64-bit integer is read as that integer;
* `NumberLiteral.spells_ofFloat`: what the literal of a double is made of;
* `NumberLiteral.toFloat_magnitude_ofFloat`: the double is the nearest one to its literal.
-/

namespace RunTrace.Json.NumberLiteral

open Decimal

/-! ## Integers -/

/-- The literal that writes a natural number can be spelled. -/
theorem spellable_ofNat (n : ℕ) : (ofNat n).Spellable where
  whole := isDigits_digits n
  lead := (isNumeral_digits n).lead
  fraction := fun _ h => nomatch h
  exponent := fun _ h => nomatch h

/-- The literal of a 64-bit integer is read as that integer. -/
theorem read_ofNat {n : ℕ} (h : n < UInt64.size) : (ofNat n).read = .ok (.integer n) := by
  have hinteger : (ofNat n).integer? = some (n : ℤ) := by
    simp [integer?, ofNat, h]
  rw [read, hinteger]

/-! ## Doubles -/

/-- Zeros behind the digits of a coefficient can be moved to the exponent. -/
theorem value_mul_ten_pow (n j : ℕ) (x : ℤ) :
    Decimal.value ⟨n * 10 ^ j, x⟩ = Decimal.value ⟨n, x + j⟩ := by
  rw [Decimal.value, Decimal.value, zpow_add₀ (by norm_num), zpow_natCast]
  push_cast
  ring

/-- Only zero has significant digits that begin with a zero. -/
theorem significantDigits_lead {d : Decimal} {more : List Char}
    (h : d.significantDigits = '0' :: more) : more = [] ∧ d.leadingExponent = 0 := by
  have hzero : d.coefficient = 0 := by
    by_contra hne
    obtain ⟨-, -, zeros, -, -, hdigits⟩ := Decimal.exists_significantDigits hne
    rw [h, List.cons_append] at hdigits
    exact hne (Decimal.eq_zero_of_digits_eq_cons hdigits)
  obtain ⟨_, exponent⟩ := d
  obtain rfl := hzero
  rw [Decimal.significantDigits_zero] at h
  exact ⟨(List.cons.inj h).2.symm, rfl⟩

/-- Digits on either side of a point, and the value of the number that they spell. -/
structure PointDigits (front back : List Char) (value : ℚ) : Prop where
  whole : IsDigits front
  lead : ∀ more, front = '0' :: more → more = []
  fraction : IsDigits back
  value_eq : Decimal.value ⟨Decimal.natOfDigits (front ++ back), -back.length⟩ = value

section Positional

variable {ds : List Char} {k : ℕ}

/-- A whole number is written with zeros up to the point, and one behind it. -/
theorem pointDigits_whole (hdigits : IsDigits ds)
    (hlead : ∀ more, ds = '0' :: more → more = [] ∧ (k : ℤ) = 0) (hle : ds.length ≤ k + 1) :
    PointDigits (ds ++ List.replicate (k + 1 - ds.length) '0') ['0']
      (Decimal.value ⟨Decimal.natOfDigits ds, k + 1 - ds.length⟩) where
  whole := hdigits.append fun _ => isDigit_of_mem_zeros
  lead more h := by
    -- Digits that begin with a zero are that of zero, and behind it no zeros are needed.
    obtain ⟨c, rest, rfl⟩ := List.exists_cons_of_ne_nil hdigits.ne_nil
    obtain ⟨rfl, hmore⟩ := List.cons.inj h
    obtain ⟨rfl, hk⟩ := hlead rest rfl
    obtain rfl : k = 0 := by omega
    exact hmore.symm
  fraction := ⟨List.cons_ne_nil _ _, fun _ => isDigit_of_mem_zeros (n := 1)⟩
  value_eq := by
    have hzeros : ds ++ List.replicate (k + 1 - ds.length) '0' ++ ['0'] =
        ds ++ List.replicate (k + 1 - ds.length + 1) '0' := by
      rw [List.append_assoc, List.replicate_succ']
    rw [hzeros, Decimal.natOfDigits_append_zeros, value_mul_ten_pow]
    congr 2
    change -(1 : ℤ) + _ = _
    omega

/-- Digits that reach behind the point are split there. -/
theorem pointDigits_split (hdigits : IsDigits ds)
    (hlead : ∀ more, ds = '0' :: more → more = [] ∧ (k : ℤ) = 0) (hlt : k + 1 < ds.length) :
    PointDigits (ds.take (k + 1)) (ds.drop (k + 1))
      (Decimal.value ⟨Decimal.natOfDigits ds, k + 1 - ds.length⟩) where
  whole := by
    refine ⟨fun hnil => hdigits.ne_nil ?_, fun c hc => hdigits.digit c (List.mem_of_mem_take hc)⟩
    exact (List.take_eq_nil_iff.1 hnil).resolve_left (Nat.succ_ne_zero k)
  lead more h := by
    -- Digits that begin with a zero are a single one, too few to be split.
    obtain ⟨c, rest, rfl⟩ := List.exists_cons_of_ne_nil hdigits.ne_nil
    rw [List.take_succ_cons] at h
    obtain ⟨rfl, -⟩ := List.cons.inj h
    obtain ⟨rfl, -⟩ := hlead rest rfl
    simp at hlt
  fraction := by
    refine ⟨fun hnil => ?_, fun c hc => hdigits.digit c (List.mem_of_mem_drop hc)⟩
    have := List.drop_eq_nil_iff.1 hnil
    omega
  value_eq := by
    rw [List.take_append_drop, List.length_drop]
    congr 2
    omega

/-- A number below one is written with zeros behind the point. -/
theorem pointDigits_below (hdigits : IsDigits ds) :
    PointDigits ['0'] (List.replicate k '0' ++ ds)
      (Decimal.value ⟨Decimal.natOfDigits ds, Int.negSucc k + 1 - ds.length⟩) where
  whole := ⟨List.cons_ne_nil _ _, fun _ => isDigit_of_mem_zeros (n := 1)⟩
  lead more h := (List.cons.inj h).2.symm
  fraction := ⟨List.append_ne_nil_of_right_ne_nil _ hdigits.ne_nil, fun c hc =>
    (List.mem_append.1 hc).elim isDigit_of_mem_zeros (hdigits.digit c)⟩
  value_eq := by
    have hzeros : ['0'] ++ (List.replicate k '0' ++ ds) = List.replicate (k + 1) '0' ++ ds := rfl
    rw [hzeros, Decimal.natOfDigits_zeros_append, List.length_append, List.length_replicate]
    congr 2
    omega

end Positional

/-- Without exponent, a number is written with digits on either side of a point. -/
theorem positionalText_eq (d : Decimal) :
    ∃ front back, floatLayout.positionalText d.significantDigits d.leadingExponent =
        front ++ '.' :: back ∧ PointDigits front back d.value := by
  have hdigits := isDigits_significantDigits d
  have hlead : ∀ more, d.significantDigits = '0' :: more →
      more = [] ∧ d.leadingExponent = 0 := fun more => significantDigits_lead
  rw [← Decimal.value_reduced d, Decimal.reduced]
  generalize d.significantDigits = ds at hdigits hlead
  generalize d.leadingExponent = k at hlead
  -- The point is behind the digits, among them, or in front of them.
  cases k with
  | ofNat k =>
    cases hdrop : ds.drop (k + 1) with
    | nil =>
      refine ⟨_, _, ?_, pointDigits_whole hdigits hlead (List.drop_eq_nil_iff.1 hdrop)⟩
      simp [Decimal.Layout.positionalText, hdrop, floatLayout]
    | cons c fraction =>
      have hlt : k + 1 < ds.length := by
        by_contra hle
        rw [List.drop_eq_nil_iff.2 (by omega)] at hdrop
        contradiction
      refine ⟨_, _, ?_, pointDigits_split hdigits hlead hlt⟩
      simp [Decimal.Layout.positionalText, hdrop]
  | negSucc k => exact ⟨_, _, rfl, pointDigits_below hdigits⟩

/-- With an exponent, a number is written with one digit before the point. -/
theorem value_exponential (d : Decimal) :
    Decimal.value ⟨Decimal.natOfDigits d.significantDigits,
      d.leadingExponent - (d.significantDigits.length - 1 : ℕ)⟩ = d.value := by
  have hlength := List.length_pos_iff.2 d.significantDigits_ne_nil
  rw [← Decimal.value_reduced d, Decimal.reduced]
  congr 2
  omega

/-- What the literal that writes a double is made of. -/
structure Spells (x : Float) (literal : NumberLiteral) : Prop where
  spellable : literal.Spellable
  negative : literal.negative = signBit x
  /-- A point or an exponent is written. -/
  marked : literal.fraction ≠ none ∨ literal.exponent ≠ none
  value_eq : literal.magnitude.value = (Decimal.shortest floatLayout.tie x).value

/-- The exponent that is written with a sign and the digits of its magnitude. -/
theorem writtenExponent_digits (k : ℤ) {literal : NumberLiteral}
    (h : literal.exponent =
      some (if k < 0 then .minus else .plus, Decimal.digits k.natAbs)) :
    literal.writtenExponent = k := by
  rw [writtenExponent, h]
  by_cases hneg : k < 0
  · rw [if_pos hneg]
    simp only [Decimal.natOfDigits_digits]
    omega
  · rw [if_neg hneg]
    simp only [Decimal.natOfDigits_digits]
    omega

/-- Digits on either side of a point spell a double without exponent. -/
theorem spells_positional {x : Float} {front back : List Char}
    (h : PointDigits front back (Decimal.shortest floatLayout.tie x).value) :
    Spells x
      { negative := signBit x, whole := front, fraction := some back, exponent := none } := by
  refine ⟨⟨h.whole, h.lead, ?_, fun _ h => nomatch h⟩, rfl, .inl nofun, ?_⟩
  · rintro ds ⟨⟩
    exact h.fraction
  · rw [← h.value_eq, magnitude, writtenExponent, zero_sub]
    rfl

/-- Where no exponent is needed, a double is written with a point between its digits. -/
theorem ofFloat_positional {x : Float} {front back : List Char}
    (h : floatLayout.positional (Decimal.shortest floatLayout.tie x).leadingExponent = true)
    (hdigits : IsDigits front)
    (htext : floatLayout.positionalText (Decimal.shortest floatLayout.tie x).significantDigits
      (Decimal.shortest floatLayout.tie x).leadingExponent = front ++ '.' :: back) :
    ofFloat x =
      { negative := signBit x, whole := front, fraction := some back, exponent := none } := by
  have hne : ∀ c ∈ front, decide (c ≠ '.') = true := by
    intro c hc
    rw [decide_eq_true_iff]
    rintro rfl
    exact absurd (hdigits.digit '.' hc) (by decide)
  -- The text is cut at its only point.
  have hwhole : (front ++ '.' :: back).takeWhile (· ≠ '.') = front := by
    rw [List.takeWhile_append_of_pos hne]
    simp
  have hfraction : ((front ++ '.' :: back).dropWhile (· ≠ '.')).drop 1 = back := by
    rw [List.dropWhile_append_of_pos hne]
    simp
  unfold ofFloat
  dsimp only
  rw [if_pos h, htext, hwhole, hfraction]

/-- The literal of a double that is written with an exponent, behind one digit and others. -/
def exponential (x : Float) (first : Char) (more : List Char) (k : ℤ) : NumberLiteral where
  negative := signBit x
  whole := [first]
  fraction := if more = [] then none else some more
  exponent := some (if k < 0 then .minus else .plus, Decimal.digits k.natAbs)

theorem spells_exponential {x : Float} {first : Char} {more : List Char} {k : ℤ}
    (hdigits : IsDigits (first :: more))
    (hvalue : Decimal.value ⟨Decimal.natOfDigits (first :: more), k - more.length⟩ =
      (Decimal.shortest floatLayout.tie x).value) :
    Spells x (exponential x first more k) := by
  have hgetD : (exponential x first more k).fraction.getD [] = more := by
    cases more with
    | nil => rfl
    | cons c more => rfl
  refine ⟨⟨?_, ?_, ?_, ?_⟩, rfl, .inr nofun, ?_⟩
  · refine ⟨List.cons_ne_nil _ _, fun c hc => hdigits.digit c ?_⟩
    exact List.mem_cons.2 (.inl (List.mem_singleton.1 hc))
  · intro ds h
    exact (List.cons.inj h).2.symm
  · intro ds h
    cases more with
    | nil => exact nomatch h
    | cons c more =>
      obtain rfl : c :: more = ds := Option.some.inj h
      exact ⟨List.cons_ne_nil _ _, fun d hd => hdigits.digit d (List.mem_cons_of_mem _ hd)⟩
  · rintro e ⟨⟩
    exact isDigits_digits _
  · rw [magnitude, hgetD, writtenExponent_digits k rfl]
    exact hvalue

theorem ofFloat_exponential {x : Float} {first : Char} {more : List Char}
    (h : ¬ floatLayout.positional (Decimal.shortest floatLayout.tie x).leadingExponent = true)
    (hdigits : (Decimal.shortest floatLayout.tie x).significantDigits = first :: more) :
    ofFloat x =
      exponential x first more (Decimal.shortest floatLayout.tie x).leadingExponent := by
  unfold ofFloat
  dsimp only
  rw [if_neg h, hdigits, exponential]
  simp

/-- A double is spelled by the literal that writes it. -/
theorem spells_ofFloat (x : Float) : Spells x (ofFloat x) := by
  let d := Decimal.shortest floatLayout.tie x
  by_cases hpositional : floatLayout.positional d.leadingExponent = true
  · obtain ⟨front, back, htext, hpoint⟩ := positionalText_eq d
    rw [ofFloat_positional hpositional hpoint.whole htext]
    exact spells_positional hpoint
  · obtain ⟨first, more, hds⟩ := List.exists_cons_of_ne_nil d.significantDigits_ne_nil
    have hdigits := isDigits_significantDigits d
    have hvalue := value_exponential d
    rw [hds] at hdigits hvalue
    rw [ofFloat_exponential hpositional hds]
    exact spells_exponential hdigits hvalue

/-- The double nearest to what is written for a finite double is its magnitude. -/
theorem toFloat_magnitude_ofFloat {x : Float} (h : x.isFinite = true) :
    (ofFloat x).magnitude.toFloat = x.abs := by
  rw [Decimal.toFloat_eq_of_value_eq (spells_ofFloat x).value_eq, Decimal.toFloat_shortest _ h]

end RunTrace.Json.NumberLiteral
