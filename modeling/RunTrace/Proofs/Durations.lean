import RunTrace.Display
import RunTrace.Proofs.Decimal.Digits

/-!
# Durations read back

A duration is displayed in milliseconds, in seconds, or in minutes and seconds. The unit behind the
first number of a text tells in which of these, so every text of a duration can be read back. What
is read is the duration below a second, and above it the whole seconds.

## Main results

* `Display.readDuration?_of_lt`: milliseconds are read where there is less than a second;
* `Display.exists_readDuration?_of_le`: else minutes and seconds are read that come to the whole
  seconds;
* `Display.duration_unambiguous`: the durations that have the same text.
-/

namespace RunTrace.Display

open Decimal (digits natOfDigits)

/-! ## Reading durations -/

/-- What the text of a duration says. -/
inductive ReadDuration where
  /-- A number of milliseconds. -/
  | milliseconds (count : Nat)
  /-- A number of seconds, behind a number of minutes or alone. -/
  | seconds (minutes : Option Nat) (count : Nat)
  deriving DecidableEq, Repr

/-- The number that the digits at the start of a text stand for, and what is behind them. -/
def readNumber? (text : List Char) : Option (Nat × List Char) :=
  let ds := text.takeWhile Char.isDigit
  if ds = [] then none else some (natOfDigits ds, text.dropWhile Char.isDigit)

/-- Reads the text of a duration. -/
def readDuration? (text : String) : Option ReadDuration := do
  let (first, unit) ← readNumber? text.toList
  -- Minutes are the only unit with something behind it.
  match unit with
  | ['m', 's'] => some (.milliseconds first)
  | ['s'] => some (.seconds none first)
  | 'm' :: ' ' :: rest =>
    let (second, unit) ← readNumber? rest
    if unit = ['s'] then some (.seconds (some first) second) else none
  | _ => none

/-! ## What is displayed is read back -/

/-- The digits of a number are read up to a unit. -/
theorem readNumber?_digits_append (n : Nat) {c : Char} (hc : c.isDigit = false)
    (rest : List Char) : readNumber? (digits n ++ c :: rest) = some (n, c :: rest) := by
  have hdigits := Decimal.isDigits_digits n
  have hunit : ∀ d ∈ (c :: rest).head?, d.isDigit = false := by
    intro d hd
    obtain rfl := Option.some.inj hd
    exact hc
  rw [readNumber?, Decimal.takeWhile_digits hdigits hunit, Decimal.dropWhile_digits hdigits hunit,
    if_neg hdigits.ne_nil, Decimal.natOfDigits_digits]

theorem readDuration?_milliseconds (n : Nat) :
    readDuration? (Decimal.ofNat n ++ "ms") = some (.milliseconds n) := by
  have htext : (Decimal.ofNat n ++ "ms").toList = digits n ++ ['m', 's'] := by
    simp [Decimal.ofNat]
  rw [readDuration?, htext, readNumber?_digits_append n rfl]
  rfl

theorem readDuration?_seconds (n : Nat) :
    readDuration? (Decimal.ofNat n ++ "s") = some (.seconds none n) := by
  have htext : (Decimal.ofNat n ++ "s").toList = digits n ++ ['s'] := by
    simp [Decimal.ofNat]
  rw [readDuration?, htext, readNumber?_digits_append n rfl]
  rfl

theorem readDuration?_minutes (m n : Nat) :
    readDuration? (Decimal.ofNat m ++ "m " ++ Decimal.ofNat n ++ "s") =
      some (.seconds (some m) n) := by
  have htext : (Decimal.ofNat m ++ "m " ++ Decimal.ofNat n ++ "s").toList =
      digits m ++ 'm' :: ' ' :: (digits n ++ ['s']) := by
    simp [Decimal.ofNat]
  have hseconds : readNumber? (digits n ++ ['s']) = some (n, ['s']) :=
    readNumber?_digits_append n rfl []
  rw [readDuration?, htext, readNumber?_digits_append m rfl]
  -- The seconds are read in what is behind the unit of the minutes.
  simp [hseconds]

/-- Below a second, the text says the duration. -/
theorem readDuration?_of_lt {ms : UInt64} (h : ms.toNat < 1000) :
    readDuration? (duration ms) = some (.milliseconds ms.toNat) := by
  rw [duration, if_pos h, readDuration?_milliseconds]

/-- From a second on, the text says the whole seconds of the duration, and how many of them are
minutes if it is at least one. -/
theorem exists_readDuration?_of_le {ms : UInt64} (h : 1000 ≤ ms.toNat) :
    ∃ minutes seconds, readDuration? (duration ms) = some (.seconds minutes seconds) ∧
      60 * minutes.getD 0 + seconds = ms.toNat / 1000 ∧ seconds < 60 ∧
      ∀ count ∈ minutes, 1 ≤ count := by
  rw [duration, if_neg (Nat.not_lt.2 h)]
  by_cases hminute : ms.toNat / 1000 < 60
  · rw [if_pos hminute, readDuration?_seconds]
    refine ⟨none, ms.toNat / 1000, rfl, ?_, hminute, by simp⟩
    rw [Option.getD_none, Nat.mul_zero, Nat.zero_add]
  · rw [if_neg hminute, readDuration?_minutes]
    refine ⟨some (ms.toNat / 1000 / 60), ms.toNat / 1000 % 60, rfl, Nat.div_add_mod _ 60,
      Nat.mod_lt _ (by decide), fun count hcount => ?_⟩
    obtain rfl := Option.some.inj hcount
    omega

/-! ## Durations with the same text -/

/-- Minutes and seconds are not read as milliseconds. -/
theorem le_of_duration_eq {a b : UInt64} (h : duration a = duration b) (ha : 1000 ≤ a.toNat) :
    1000 ≤ b.toNat := by
  obtain ⟨minutes, seconds, hread, -⟩ := exists_readDuration?_of_le ha
  refine Nat.le_of_not_lt fun hb => ?_
  rw [h, readDuration?_of_lt hb] at hread
  exact nomatch hread

/-- From a second on, the text depends on the whole seconds alone. -/
theorem duration_congr {a b : UInt64} (ha : 1000 ≤ a.toNat) (hb : 1000 ≤ b.toNat)
    (h : a.toNat / 1000 = b.toNat / 1000) : duration a = duration b := by
  rw [duration, duration, if_neg (Nat.not_lt.2 ha), if_neg (Nat.not_lt.2 hb), h]

/-- Two durations have the same text exactly if they are equal, or both at least a second and equal
in whole seconds. From a second on, the minutes and seconds that are read in the text come to these
whole seconds, with less than 60 seconds beside the minutes, and no minutes are named if there are
none. -/
theorem duration_unambiguous (a b : UInt64) :
    (duration a = duration b ↔ a = b ∨ 1000 ≤ a ∧ 1000 ≤ b ∧ a / 1000 = b / 1000) ∧
      (1000 ≤ a → ∃ minutes seconds,
        readDuration? (duration a) = some (.seconds minutes seconds) ∧
          60 * minutes.getD 0 + seconds = (a / 1000).toNat ∧ seconds < 60 ∧
          ∀ count ∈ minutes, 1 ≤ count) := by
  have hthousand : (1000 : UInt64).toNat = 1000 := rfl
  simp only [UInt64.le_iff_toNat_le, ← UInt64.toNat_inj, UInt64.toNat_div, hthousand]
  refine ⟨⟨fun h => ?_, ?_⟩, exists_readDuration?_of_le⟩
  · rcases Nat.lt_or_ge a.toNat 1000 with ha | ha
    · have hb : b.toNat < 1000 :=
        Nat.lt_of_not_le fun hb => absurd (le_of_duration_eq h.symm hb) (Nat.not_le.2 ha)
      have hread := readDuration?_of_lt ha
      rw [h, readDuration?_of_lt hb] at hread
      exact .inl (ReadDuration.milliseconds.inj (Option.some.inj hread)).symm
    · have hb := le_of_duration_eq h ha
      obtain ⟨minutes, seconds, hread, hvalue, -⟩ := exists_readDuration?_of_le ha
      obtain ⟨minutes', seconds', hread', hvalue', -⟩ := exists_readDuration?_of_le hb
      rw [← h, hread] at hread'
      obtain ⟨rfl, rfl⟩ := ReadDuration.seconds.inj (Option.some.inj hread')
      exact .inr ⟨ha, hb, hvalue.symm.trans hvalue'⟩
  · rintro (heq | ⟨ha, hb, h⟩)
    · rw [UInt64.toNat_inj.1 heq]
    · exact duration_congr ha hb h

/-- Two durations of 125 seconds and a part have the same text, in which two minutes and five
seconds are read. A millisecond less than a second is not displayed as a second. -/
theorem duration_unambiguous_demo :
    duration 125500 = duration 125999 ∧ duration 999 ≠ duration 1000 ∧
      (1000 : UInt64) ≤ 125500 ∧
      readDuration? (duration 125500) = some (.seconds (some 2) 5) := by
  obtain ⟨hsame, hread⟩ := duration_unambiguous 125500 125999
  have hsecond : (1000 : UInt64) ≤ 125500 := by decide
  obtain ⟨minutes, seconds, hshown, hvalue, hlt, -⟩ := hread hsecond
  have hwhole : 60 * minutes.getD 0 + seconds = 125 := hvalue
  have hboundary : duration 999 ≠ duration 1000 := fun h =>
    absurd ((duration_unambiguous 999 1000).1.1 h) (by decide)
  refine ⟨hsame.2 (by decide), hboundary, hsecond, ?_⟩
  cases minutes with
  | none =>
    rw [Option.getD_none] at hwhole
    omega
  | some count =>
    rw [Option.getD_some] at hwhole
    obtain rfl : seconds = 5 := by omega
    obtain rfl : count = 2 := by omega
    exact hshown

end RunTrace.Display
