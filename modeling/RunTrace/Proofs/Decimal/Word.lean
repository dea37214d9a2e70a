import RunTrace.Decimal.Word
import RunTrace.Proofs.Decimal.Digits
import RunTrace.Proofs.Results

/-!
# Which texts are words

A word is read digit by digit, and given up as soon as it is too large. Digits that follow only make
a number larger, so what is read is every number that is small enough, zeros in front included.

## Main results

* `readDigits_eq_ok_iff`: digits are read exactly if the number that they stand for is a word;
* `readWord_eq_ok_iff`: a text is read as a word exactly if it spells the word.
-/

namespace RunTrace.Decimal

/-- A text spells a word: it is the digits of its number, with or without a plus sign in front. -/
def WordSpelledBy (word : UInt32) (text : String) : Prop :=
  ∃ digits, IsDigits digits ∧ natOfDigits digits = word.toNat ∧
    (text.toList = digits ∨ text.toList = '+' :: digits)

/-- Further digits are read exactly if the number that they stand for together with those in front
is a word. -/
theorem readDigits_eq_ok_iff {ds : List Char} {n m : Nat} (hn : n < UInt32.size) :
    readDigits n ds = .ok m ↔
      (∀ c ∈ ds, c.isDigit = true) ∧ Nat.ofDigitChars 10 ds n = m ∧ m < UInt32.size := by
  induction ds generalizing n with
  | nil =>
    rw [readDigits, Nat.ofDigitChars_nil]
    constructor
    · intro h
      obtain rfl := Except.ok.inj h
      exact ⟨fun c hc => absurd hc List.not_mem_nil, rfl, hn⟩
    · rintro ⟨-, rfl, -⟩
      rfl
  | cons c rest ih =>
    rw [readDigits, Nat.ofDigitChars_cons, List.forall_mem_cons]
    by_cases hdigit : c.isDigit = true
    · rw [hdigit]
      by_cases hlarge : UInt32.size ≤ 10 * n + (c.toNat - '0'.toNat)
      · -- The number is too large already, and the digits behind do not make it smaller.
        have hmore := le_ofDigitChars rest (10 * n + (c.toNat - '0'.toNat))
        simp only [Bool.not_true, Bool.false_eq_true, if_false, if_pos hlarge, reduceCtorEq,
          false_iff]
        rintro ⟨-, rfl, hsmall⟩
        omega
      · simp only [Bool.not_true, Bool.false_eq_true, if_false, if_neg hlarge, true_and]
        exact ih (Nat.lt_of_not_le hlarge)
    · simp [hdigit]

/-- Digits are read as a word exactly if they stand for its number. -/
theorem ofNat_readDigits_eq_ok_iff {ds : List Char} {word : UInt32} :
    UInt32.ofNat <$> readDigits 0 ds = .ok word ↔
      (∀ c ∈ ds, c.isDigit = true) ∧ natOfDigits ds = word.toNat := by
  rw [map_eq_ok]
  constructor
  · rintro ⟨n, hread, rfl⟩
    obtain ⟨hdigits, hvalue, hsmall⟩ := (readDigits_eq_ok_iff (by decide)).1 hread
    rw [UInt32.toNat_ofNat_of_lt' hsmall]
    exact ⟨hdigits, hvalue⟩
  · rintro ⟨hdigits, hvalue⟩
    exact ⟨word.toNat, (readDigits_eq_ok_iff (by decide)).2 ⟨hdigits, hvalue, word.toNat_lt⟩,
      UInt32.ofNat_toNat⟩

/-- A text is read as a word exactly if it spells the word. -/
theorem readWord_eq_ok_iff {text : String} {word : UInt32} :
    readWord text = .ok word ↔ WordSpelledBy word text := by
  have hplus : ¬ ('+').isDigit = true := by decide
  unfold readWord WordSpelledBy
  split
  · next htext =>
    rw [htext]
    simp only [reduceCtorEq, false_iff, or_false]
    rintro ⟨digits, hdigits, -, rfl⟩
    exact hdigits.ne_nil rfl
  · next htext =>
    rw [htext]
    simp only [reduceCtorEq, false_iff]
    rintro ⟨digits, hdigits, -, rfl | h⟩
    · exact hplus (hdigits.digit '+' List.mem_cons_self)
    · exact hdigits.ne_nil (List.cons.inj h).2.symm
  · next ds hne htext =>
    rw [htext, ofNat_readDigits_eq_ok_iff]
    constructor
    · rintro ⟨hdigits, hvalue⟩
      exact ⟨ds, ⟨fun hnil => hne (hnil ▸ rfl), hdigits⟩, hvalue, .inr rfl⟩
    · rintro ⟨digits, hdigits, hvalue, rfl | h⟩
      · exact absurd (hdigits.digit '+' List.mem_cons_self) hplus
      · rw [(List.cons.inj h).2]
        exact ⟨hdigits.digit, hvalue⟩
  · next hnil _ hsigned =>
    rw [ofNat_readDigits_eq_ok_iff]
    constructor
    · rintro ⟨hdigits, hvalue⟩
      exact ⟨text.toList, ⟨hnil, hdigits⟩, hvalue, .inl rfl⟩
    · rintro ⟨digits, hdigits, hvalue, rfl | h⟩
      · exact ⟨hdigits.digit, hvalue⟩
      · exact absurd h (hsigned digits)

end RunTrace.Decimal
