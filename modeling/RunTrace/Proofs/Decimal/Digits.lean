import Mathlib.Algebra.Group.Nat.Defs
import RunTrace.Decimal.Basic

/-!
# Digits and the numbers they stand for

The digits of a number stand for that number, with or without zeros in front of them, and zeros
behind them are factors of ten. The significant digits of a decimal number end where its
trailing zeros begin.

## Main results

* `natOfDigits_digits`: reading the digits of a number gives the number;
* `natOfDigits_append`: the digits in front are worth a power of ten each;
* `IsNumeral.eq_digits`: digits without a zero in front of others are those of their number;
* `exists_significantDigits`: behind the significant digits there are only zeros;
* `natOfDigits_significantDigits_mod`: what the significant digits stand for is no multiple of
  ten.
-/

namespace RunTrace.Decimal

/-! ## Reading digits -/

@[simp]
theorem natOfDigits_digits (n : Nat) : natOfDigits (digits n) = n :=
  Nat.ofDigitChars_ten_toDigits

/-- Digits that are followed by others are worth a power of ten each. -/
theorem natOfDigits_append (ds es : List Char) :
    natOfDigits (ds ++ es) = natOfDigits ds * 10 ^ es.length + natOfDigits es := by
  change Nat.ofDigitChars 10 (ds ++ es) 0 = _
  rw [Nat.ofDigitChars_append, Nat.ofDigitChars_eq_ofDigitChars_zero, Nat.mul_comm]
  rfl

/-- Digits behind a number make it larger by a power of ten each. -/
theorem mul_le_ofDigitChars (n : Nat) (ds : List Char) :
    n * 10 ^ ds.length ≤ Nat.ofDigitChars 10 ds n := by
  rw [Nat.ofDigitChars_eq_ofDigitChars_zero, Nat.mul_comm]
  exact Nat.le_add_right _ _

/-- Further digits make no number smaller. -/
theorem le_ofDigitChars (ds : List Char) (n : Nat) : n ≤ Nat.ofDigitChars 10 ds n :=
  Nat.le_trans (Nat.le_mul_of_pos_right n (Nat.pow_pos (by decide))) (mul_le_ofDigitChars n ds)

@[simp]
theorem natOfDigits_replicate_zero (k : Nat) : natOfDigits (List.replicate k '0') = 0 :=
  Nat.ofDigitChars_replicate_zero

/-- Zeros in front of other digits do not matter. -/
@[simp]
theorem natOfDigits_zeros_append (k : Nat) (ds : List Char) :
    natOfDigits (List.replicate k '0' ++ ds) = natOfDigits ds := by
  rw [natOfDigits_append, natOfDigits_replicate_zero, Nat.zero_mul, Nat.zero_add]

/-- Zeros behind other digits are factors of ten. -/
theorem natOfDigits_append_zeros (ds : List Char) (k : Nat) :
    natOfDigits (ds ++ List.replicate k '0') = natOfDigits ds * 10 ^ k := by
  rw [natOfDigits_append, natOfDigits_replicate_zero, List.length_replicate, Nat.add_zero]

/-! ## Runs of digits -/

/-- One or more digits. -/
structure IsDigits (ds : List Char) : Prop where
  ne_nil : ds ≠ []
  digit : ∀ c ∈ ds, c.isDigit = true

theorem IsDigits.append {ds es : List Char} (hds : IsDigits ds)
    (hes : ∀ c ∈ es, c.isDigit = true) : IsDigits (ds ++ es) :=
  ⟨List.append_ne_nil_of_left_ne_nil hds.ne_nil es, fun c hc =>
    (List.mem_append.1 hc).elim (hds.digit c) (hes c)⟩

theorem isDigit_of_mem_zeros {n : Nat} {c : Char} (h : c ∈ List.replicate n '0') :
    c.isDigit = true := by
  rw [List.eq_of_mem_replicate h]
  rfl

/-- A run of digits ends where something else follows. -/
theorem takeWhile_digits {ds rest : List Char} (h : IsDigits ds)
    (hrest : ∀ c ∈ rest.head?, c.isDigit = false) : (ds ++ rest).takeWhile Char.isDigit = ds := by
  rw [List.takeWhile_append_of_pos h.digit]
  -- Behind the digits there is nothing, or what ends them.
  cases rest with
  | nil => exact List.append_nil ds
  | cons c more => rw [List.takeWhile_cons, hrest c rfl, if_neg Bool.false_ne_true, List.append_nil]

theorem dropWhile_digits {ds rest : List Char} (h : IsDigits ds)
    (hrest : ∀ c ∈ rest.head?, c.isDigit = false) :
    (ds ++ rest).dropWhile Char.isDigit = rest := by
  rw [List.dropWhile_append_of_pos h.digit]
  cases rest with
  | nil => rfl
  | cons c more => rw [List.dropWhile_cons, hrest c rfl, if_neg Bool.false_ne_true]

/-! ## The digits of a number -/

theorem isDigit_of_mem_digits {n : Nat} {c : Char} (h : c ∈ digits n) : c.isDigit = true :=
  Nat.isDigit_of_mem_toDigits (by decide) (by decide) h

theorem digits_ne_nil (n : Nat) : digits n ≠ [] :=
  Nat.toDigits_ne_nil

theorem isDigits_digits (n : Nat) : IsDigits (digits n) :=
  ⟨digits_ne_nil n, fun _ => isDigit_of_mem_digits⟩

theorem length_digits_le {n width : Nat} (hwidth : 0 < width) (h : n < 10 ^ width) :
    (digits n).length ≤ width :=
  (Nat.length_toDigits_le_iff (by decide) hwidth).2 h

/-- The digit zero stands in front only if the number is zero. -/
theorem eq_zero_of_digits_eq_cons {n : Nat} {ds : List Char} (h : digits n = '0' :: ds) :
    n = 0 := by
  induction n using Nat.base_induction 10 (by decide) generalizing ds with
  | single n hn =>
    -- A single digit is compared with all ten.
    have hdigit : n.digitChar = '0' := by
      rw [digits, Nat.toDigits_of_lt_base hn] at h
      exact (List.cons.inj h).1
    exact (by decide : ∀ n < 10, n.digitChar = '0' → n = 0) n hn hdigit
  | digit more last hlast hmore ih =>
    -- The first digit is that of the number without its last digit, which would be zero then.
    rw [digits, ← Nat.toDigits_append_toDigits (by decide) hmore hlast] at h
    obtain ⟨first, rest, hfirst⟩ := List.exists_cons_of_ne_nil (digits_ne_nil more)
    rw [digits] at hfirst
    rw [hfirst] at h
    obtain rfl : first = '0' := (List.cons.inj h).1
    rw [ih hfirst] at hmore
    exact absurd hmore (Nat.lt_irrefl 0)

/-! ## Numerals -/

/-- Digits are the numeral of the number that they stand for if there is no zero in front of
others. -/
structure IsNumeral (n : Nat) (ds : List Char) : Prop where
  isDigits : IsDigits ds
  value : natOfDigits ds = n
  lead : ∀ more, ds = '0' :: more → more = []

theorem isNumeral_digits (n : Nat) : IsNumeral n (digits n) where
  isDigits := isDigits_digits n
  value := natOfDigits_digits n
  lead more h := by
    obtain rfl := eq_zero_of_digits_eq_cons h
    exact (List.cons.inj h).2.symm

/-- A digit is the digits of a number below ten. -/
theorem digits_of_isDigit {c : Char} (h : c.isDigit = true) :
    c.toNat - '0'.toNat < 10 ∧ digits (c.toNat - '0'.toNat) = [c] := by
  obtain ⟨hlow, hhigh⟩ := Char.isDigit_iff_toNat.1 h
  simp only [Char.reduceToNat] at hlow hhigh ⊢
  have hlt : c.toNat - 48 < 10 := by omega
  refine ⟨hlt, ?_⟩
  rw [digits, Nat.toDigits_of_lt_base hlt, List.singleton_inj, ← Char.toNat_inj,
    Nat.toNat_digitChar_of_lt_ten hlt]
  omega

/-- Behind the digits of a number that is not zero, others make the digits of a larger one. -/
theorem digits_append {ds : List Char} {n : Nat} (hpos : 0 < n)
    (hds : ∀ c ∈ ds, c.isDigit = true) :
    digits n ++ ds = digits (Nat.ofDigitChars 10 ds n) := by
  induction ds generalizing n with
  | nil => rw [List.append_nil, Nat.ofDigitChars_nil]
  | cons c ds ih =>
    obtain ⟨hc, hds⟩ := List.forall_mem_cons.1 hds
    obtain ⟨hlt, hdigit⟩ := digits_of_isDigit hc
    have hnext : digits n ++ [c] = digits (10 * n + (c.toNat - '0'.toNat)) := by
      rw [← hdigit]
      exact Nat.toDigits_append_toDigits (by decide) hpos hlt
    rw [Nat.ofDigitChars_cons, ← ih (by omega) hds, ← hnext, List.append_assoc,
      List.singleton_append]

/-- A number has no other numeral than its digits. -/
theorem IsNumeral.eq_digits {n : Nat} {ds : List Char} (h : IsNumeral n ds) : ds = digits n := by
  obtain ⟨⟨hne, hdigits⟩, rfl, hlead⟩ := h
  cases ds with
  | nil => exact absurd rfl hne
  | cons c more =>
    obtain ⟨hc, hmore⟩ := List.forall_mem_cons.1 hdigits
    obtain ⟨-, hdigit⟩ := digits_of_isDigit hc
    have hvalue : natOfDigits (c :: more) = Nat.ofDigitChars 10 more (c.toNat - '0'.toNat) := by
      change Nat.ofDigitChars 10 (c :: more) 0 = _
      rw [Nat.ofDigitChars_cons, Nat.mul_zero, Nat.zero_add]
    rw [hvalue]
    by_cases hzero : c = '0'
    · subst hzero
      rw [hlead more rfl]
      rfl
    · -- The first digit is not zero, so all others are behind a number that is not.
      have hpos : 0 < c.toNat - '0'.toNat := by
        refine Nat.pos_of_ne_zero fun hnone => hzero ?_
        rw [hnone] at hdigit
        exact (List.cons.inj hdigit).1.symm
      rw [← digits_append hpos hmore, hdigit, List.singleton_append]

/-! ## Significant digits -/

/-- The digits of a coefficient are its significant digits, which end with one that is not zero,
and zeros behind them. -/
theorem exists_significantDigits {d : Decimal} (h : d.coefficient ≠ 0) :
    ∃ front last zeros, last ≠ '0' ∧ d.significantDigits = front ++ [last] ∧
      digits d.coefficient = d.significantDigits ++ List.replicate zeros '0' := by
  -- Read backwards, the trailing zeros come first.
  let backwards := (digits d.coefficient).reverse
  let zeros := backwards.takeWhile (· = '0')
  have hzeros : zeros = List.replicate zeros.length '0' :=
    List.eq_replicate_of_mem fun c hc =>
      of_decide_eq_true (List.all_eq_true.1 List.all_takeWhile c hc)
  have hsplit : digits d.coefficient =
      (backwards.dropWhile (· = '0')).reverse ++ List.replicate zeros.length '0' := by
    rw [← List.reverse_inj, List.reverse_append, List.reverse_replicate, List.reverse_reverse,
      ← hzeros]
    exact List.takeWhile_append_dropWhile.symm
  cases hback : backwards.dropWhile (· = '0') with
  | nil =>
    -- If all digits were zeros, they would stand for zero.
    rw [hback] at hsplit
    have := natOfDigits_digits d.coefficient
    rw [hsplit, List.reverse_nil, List.nil_append, natOfDigits_replicate_zero] at this
    exact absurd this.symm h
  | cons last front =>
    have hlast : last ≠ '0' := by
      have := List.head?_dropWhile_not (· = '0') backwards
      rw [hback] at this
      exact of_decide_eq_false this
    have hsignificant : d.significantDigits = front.reverse ++ [last] := by
      rw [← List.reverse_cons, ← hback]
      unfold significantDigits
      split
      · next hnil =>
        have hempty : (backwards.dropWhile (· = '0')).reverse = [] := hnil
        rw [hback, List.reverse_cons] at hempty
        simp at hempty
      · rfl
    refine ⟨front.reverse, last, zeros.length, hlast, hsignificant, ?_⟩
    rw [hsplit, hback, hsignificant, List.reverse_cons]

@[simp]
theorem significantDigits_zero (exponent : Int) :
    (⟨0, exponent⟩ : Decimal).significantDigits = ['0'] := by
  simp [significantDigits, digits]

/-- The number of the significant digits is not a multiple of ten. -/
theorem natOfDigits_significantDigits_mod {d : Decimal} (h : d.coefficient ≠ 0) :
    natOfDigits d.significantDigits % 10 ≠ 0 := by
  obtain ⟨front, last, zeros, hlast, hsignificant, hdigits⟩ := exists_significantDigits h
  have hdigit : last.isDigit = true := by
    refine isDigit_of_mem_digits (n := d.coefficient) ?_
    simp [hdigits, hsignificant]
  obtain ⟨hlow, hhigh⟩ := Char.isDigit_iff_toNat.1 hdigit
  have hne : last.toNat ≠ '0'.toNat := fun heq => hlast (Char.toNat_inj.1 heq)
  -- The last digit is what is left over by ten.
  rw [hsignificant, natOfDigits_append]
  change (_ * 10 ^ 1 + (0 + (last.toNat - 48))) % 10 ≠ 0
  simp only [Char.reduceToNat] at *
  omega

theorem significantDigits_ne_nil (d : Decimal) : d.significantDigits ≠ [] := by
  unfold significantDigits
  split
  · simp
  · next hne => exact hne

/-- Significant digits are among the digits. -/
theorem isDigit_of_mem_significantDigits {d : Decimal} {c : Char}
    (h : c ∈ d.significantDigits) : c.isDigit = true := by
  by_cases hzero : d.coefficient = 0
  · obtain ⟨_, _⟩ := d
    obtain rfl := hzero
    obtain rfl : c = '0' := by simpa using h
    decide
  · obtain ⟨-, -, zeros, -, -, hdigits⟩ := exists_significantDigits hzero
    exact isDigit_of_mem_digits (n := d.coefficient) (hdigits ▸ List.mem_append_left _ h)

theorem isDigits_significantDigits (d : Decimal) : IsDigits d.significantDigits :=
  ⟨d.significantDigits_ne_nil, fun _ => isDigit_of_mem_significantDigits⟩

end RunTrace.Decimal
