import RunTrace.Proofs.Decimal.Digits
import RunTrace.Timestamp.Reader
import RunTrace.Timestamp.Writer

/-!
# Timestamps, written and read

Every timestamp is read from the text that is written for it: in years of either sign and any
length, with or without a fraction, and within leap seconds.

## Main results

* `Reader.run_year`, `Reader.run_number`, `Reader.run_fraction`: each part is read from the text
  that is written for it;
* `Reader.run_written`: reading the text of a timestamp gives its parts;
* `instant_parts`: these parts are those of the timestamp;
* `read_text`: a timestamp is read from its text.
-/

namespace RunTrace

/-! ## Days of the calendar -/

namespace Date

/-- No month has more than 31 days. -/
theorem daysInMonth_le (year : Int) (month : Nat) : daysInMonth year month ≤ 31 := by
  unfold daysInMonth
  split
  case h_12 => split <;> decide
  all_goals decide

/-- Only the months from 1 to 12 have days. -/
theorem month_mem {year : Int} {month day : Nat} (hday : 1 ≤ day)
    (h : day ≤ daysInMonth year month) : 1 ≤ month ∧ month ≤ 12 := by
  unfold daysInMonth at h
  split at h
  case h_13 => omega
  all_goals decide

end Date

namespace Timestamp

open Decimal

/-! ## Numbers of a fixed width -/

@[simp]
theorem natOfDigits_padded (width n : Nat) : natOfDigits (padded width n) = n := by
  rw [padded, natOfDigits_zeros_append, natOfDigits_digits]

theorem isDigits_padded (width n : Nat) : IsDigits (padded width n) := by
  refine ⟨List.append_ne_nil_of_right_ne_nil _ (digits_ne_nil n), fun c hc => ?_⟩
  exact (List.mem_append.1 hc).elim isDigit_of_mem_zeros isDigit_of_mem_digits

theorem length_padded {width n : Nat} (hwidth : 0 < width) (h : n < 10 ^ width) :
    (padded width n).length = width := by
  rw [padded, List.length_append, List.length_replicate]
  exact Nat.sub_add_cancel (length_digits_le hwidth h)

/-- No blank is a digit. -/
theorem isBlank_of_isDigit {c : Char} (h : c.isDigit = true) : Text.isBlank c = false := by
  obtain ⟨hlow, hhigh⟩ := Char.isDigit_iff_toNat.1 h
  simp only [Char.reduceToNat] at hlow hhigh
  simp only [Text.isBlank, Bool.or_eq_false_iff, Bool.and_eq_false_iff, decide_eq_false_iff_not,
    beq_eq_false_iff_ne]
  omega

theorem trimStart_cons {c : Char} (h : Text.isBlank c = false) (rest : List Char) :
    Text.trimStart (c :: rest) = c :: rest := by
  rw [Text.trimStart, List.dropWhile_cons, h, if_neg Bool.false_ne_true]

theorem trimStart_digits {ds : List Char} (h : IsDigits ds) (rest : List Char) :
    Text.trimStart (ds ++ rest) = ds ++ rest := by
  obtain ⟨d, more, rfl⟩ := List.exists_cons_of_ne_nil h.ne_nil
  exact trimStart_cons (isBlank_of_isDigit (h.digit d List.mem_cons_self)) _

namespace Reader

variable {α β : Type}

/-! ## Reading the parts -/

/-- A reader that goes on with what another one has read. -/
theorem run_bind {reader : Reader α} {next : α → Reader β} {text middle : List Char}
    {value : α} (h : reader.run text = .ok (value, middle)) :
    (reader >>= next).run text = (next value).run middle := by
  rw [StateT.run_bind, h]
  rfl

theorem run_blanks {text : List Char} (h : Text.trimStart text = text) :
    blanks.run text = .ok ((), text) :=
  congrArg (fun rest => Except.ok ((), rest)) h

theorem run_mark (c : Char) (rest : List Char) : (mark c).run (c :: rest) = .ok ((), rest) := by
  change (if c = c then (set rest : Reader PUnit) else throw .invalid).run (c :: rest) = _
  rw [if_pos rfl]
  rfl

/-- What is read is the run of digits within the limit. -/
theorem run_digits (limit : Option Nat) (text : List Char) {ds : List Char} (hne : ds ≠ [])
    (h : (limit.elim text text.take).takeWhile Char.isDigit = ds) :
    (digits limit).run text = .ok (ds, text.drop ds.length) := by
  have hnonempty : ¬ ds.isEmpty = true := by simpa using hne
  cases limit <;>
  · simp only [Option.elim_none, Option.elim_some] at h
    simp only [digits, StateT.run_bind, StateT.run_get, pure_bind, h, if_neg hnonempty]
    rfl

/-- Digits up to the limit are read. -/
theorem run_digits_some {ds : List Char} (h : IsDigits ds) (rest : List Char) :
    (digits (some ds.length)).run (ds ++ rest) = .ok (ds, rest) := by
  have hall : ((ds ++ rest).take ds.length).takeWhile Char.isDigit = ds := by
    have hnil : ∀ c ∈ ([] : List Char).head?, c.isDigit = false := nofun
    rw [List.take_left]
    simpa using takeWhile_digits h hnil
  rw [run_digits (some _) _ h.ne_nil hall, List.drop_left]

/-- Without a limit, digits are read up to what is none. -/
theorem run_digits_none {ds : List Char} (h : IsDigits ds) (rest : List Char)
    (hrest : ∀ c ∈ rest.head?, c.isDigit = false) :
    (digits none).run (ds ++ rest) = .ok (ds, rest) := by
  rw [run_digits none _ h.ne_nil (takeWhile_digits h hrest), List.drop_left]

/-- A number of two digits is read. -/
theorem run_number {low high n : Nat} (hlow : low ≤ n) (hhigh : n ≤ high) (hwidth : n < 100)
    (rest : List Char) : (number low high).run (padded 2 n ++ rest) = .ok (n, rest) := by
  have hdigits := isDigits_padded 2 n
  have hread := run_digits_some hdigits rest
  rw [length_padded (by decide) hwidth] at hread
  rw [number, run_bind (run_blanks (trimStart_digits hdigits rest)), run_bind hread,
    natOfDigits_padded]
  simp only [if_neg (show ¬ (n < low ∨ high < n) by omega)]
  rfl

/-- A year of at most four digits is read without a sign. -/
theorem run_year_unsigned {n : Nat} (h : n < 10000) (rest : List Char) :
    year.run (padded 4 n ++ '-' :: rest) = .ok ((n : Int), '-' :: rest) := by
  have hrange : ¬ ((n : Int) < Int32.minValue.toInt ∨ Int32.maxValue.toInt < (n : Int)) := by
    have hmin : Int32.minValue.toInt = -2147483648 := rfl
    have hmax : Int32.maxValue.toInt = 2147483647 := rfl
    omega
  have hdigits := isDigits_padded 4 n
  have hread := run_digits_some hdigits ('-' :: rest)
  rw [length_padded (by decide) h] at hread
  obtain ⟨d, more, hcons⟩ := List.exists_cons_of_ne_nil hdigits.ne_nil
  have hd : d.isDigit = true := hdigits.digit d (hcons ▸ List.mem_cons_self)
  rw [year, run_bind (run_blanks (trimStart_digits hdigits _))]
  simp only [StateT.run_bind, StateT.run_get, pure_bind, hcons, List.cons_append]
  -- A digit cannot be taken for a sign.
  split
  · next heq => exact absurd ((List.cons.inj heq).1 ▸ hd) (by decide)
  · next heq => exact absurd ((List.cons.inj heq).1 ▸ hd) (by decide)
  · rw [← List.cons_append, ← hcons, run_bind hread, natOfDigits_padded, if_neg hrange]
    rfl

/-- Behind a sign, a year is read up to the hyphen that follows it. -/
theorem run_year_signed {n : Nat} (h : n < 2147483648) (negative : Bool) (rest : List Char) :
    year.run ((if negative then '-' else '+') :: padded 4 n ++ '-' :: rest) =
      .ok (if negative then -(n : Int) else n, '-' :: rest) := by
  have hmin : Int32.minValue.toInt = -2147483648 := rfl
  have hmax : Int32.maxValue.toInt = 2147483647 := rfl
  have hdigits := run_digits_none (isDigits_padded 4 n) ('-' :: rest) (by simp)
  rw [year, List.cons_append]
  cases negative with
  | true =>
    have hrange : ¬ (-(n : Int) < Int32.minValue.toInt ∨ Int32.maxValue.toInt < -(n : Int)) := by
      omega
    rw [run_bind (run_blanks (trimStart_cons (by decide) _))]
    simp only [↓reduceIte, StateT.run_bind, StateT.run_get, StateT.run_set, pure_bind, hdigits]
    change StateT.run
      (if -(natOfDigits _ : Int) < _ ∨ _ < -(natOfDigits _ : Int) then _ else _) _ = _
    rw [natOfDigits_padded, if_neg hrange]
    rfl
  | false =>
    have hrange : ¬ ((n : Int) < Int32.minValue.toInt ∨ Int32.maxValue.toInt < (n : Int)) := by
      omega
    rw [run_bind (run_blanks (trimStart_cons (by decide) _))]
    simp only [Bool.false_eq_true, ↓reduceIte, StateT.run_bind, StateT.run_get, StateT.run_set,
      pure_bind, hdigits]
    change StateT.run
      (if (natOfDigits _ : Int) < _ ∨ _ < (natOfDigits _ : Int) then _ else _) _ = _
    rw [natOfDigits_padded, if_neg hrange]
    rfl

/-- A year is read, whatever its sign and its length are. -/
theorem run_year {y : Int} (hfirst : Date.firstYear ≤ y) (hlast : y ≤ Date.lastYear)
    (rest : List Char) : year.run (yearText y ++ '-' :: rest) = .ok (y, '-' :: rest) := by
  simp only [Date.firstYear, Date.lastYear] at hfirst hlast
  unfold yearText
  -- Years of four digits are written without a sign, all others with one.
  split
  · next hfour =>
    rw [run_year_unsigned (by omega), Int.toNat_of_nonneg hfour.1]
  · have hread := run_year_signed (by omega : y.natAbs < 2147483648) (decide (y < 0)) rest
    have hvalue : (if y < 0 then -(y.natAbs : Int) else y.natAbs) = y := by
      split <;> omega
    simpa only [decide_eq_true_eq, hvalue] using hread

/-- Digits of a fraction are filled up with zeros to nine. -/
theorem run_fraction_padded {width n : Nat} (hwidth : 0 < width) (hle : width ≤ 9)
    (h : n < 10 ^ width) :
    fraction.run ('.' :: padded width n ++ ['Z']) = .ok (n * 10 ^ (9 - width), ['Z']) := by
  have hdigits := run_digits_none (isDigits_padded width n) ['Z'] (by simp)
  -- Of the nine zeros that are appended, as many are taken as digits are missing.
  have hnine : (padded width n ++ List.replicate 9 '0').take 9 =
      padded width n ++ List.replicate (9 - width) '0' := by
    have hsplit : List.replicate 9 '0' =
        List.replicate (9 - width) '0' ++ List.replicate width '0' := by
      rw [List.replicate_append_replicate, Nat.sub_add_cancel hle]
    rw [hsplit, ← List.append_assoc]
    exact List.take_left' (by simp [length_padded hwidth h, hle])
  rw [fraction, List.cons_append]
  simp only [StateT.run_bind, StateT.run_get, StateT.run_set, pure_bind, hdigits]
  change Except.ok (natOfDigits _, _) = _
  rw [hnine, natOfDigits_append_zeros, natOfDigits_padded]

/-- The fraction of a second is read from three, six or nine digits, or from none. -/
theorem run_fraction {nano : Nat} (h : nano < nanosPerSecond) :
    fraction.run (fractionText nano ++ ['Z']) = .ok (nano, ['Z']) := by
  simp only [nanosPerSecond] at h
  unfold fractionText
  split
  · next hzero =>
    rw [hzero]
    rfl
  · split
    · next hmod =>
      have hmillis : nano / 1000000 * 10 ^ (9 - 3) = nano :=
        Nat.div_mul_cancel (Nat.dvd_of_mod_eq_zero hmod)
      rw [run_fraction_padded (by decide) (by decide) (by omega), hmillis]
    · split
      · next hmod =>
        have hmicros : nano / 1000 * 10 ^ (9 - 6) = nano :=
          Nat.div_mul_cancel (Nat.dvd_of_mod_eq_zero hmod)
        rw [run_fraction_padded (by decide) (by decide) (by omega), hmicros]
      · have hnanos : nano * 10 ^ (9 - 9) = nano := Nat.mul_one nano
        rw [run_fraction_padded (by decide) (by decide) (by omega), hnanos]

end Reader

/-! ## Reading a timestamp -/

/-- The parts that the text of a timestamp shows. -/
def parts (t : Timestamp) : Written where
  year := t.date.year
  month := t.date.month
  day := t.date.day
  hour := t.hour
  minute := t.minute
  second := t.clockSecond
  nano := t.clockNano
  ahead := 0

theorem clockSecond_le (t : Timestamp) : t.clockSecond ≤ 60 := by
  have := t.nano_lt
  simp only [clockSecond, nanosPerSecond] at *
  omega

/-- Reading the text of a timestamp gives its parts. -/
theorem Reader.run_written (t : Timestamp) :
    Reader.written.run t.text.toList = .ok (t.parts, []) := by
  -- Each part of a timestamp is within the range that is read for it.
  obtain ⟨hfirst, hlast, hday, hdays⟩ := t.date.valid
  have hmonth := Date.month_mem hday hdays
  have hdayle := Nat.le_trans hdays (Date.daysInMonth_le _ _)
  have hhour : t.hour ≤ 23 := by
    have := t.second_lt
    simp only [hour, secondsPerDay] at *
    omega
  have hminute : t.minute < 60 := Nat.mod_lt _ (by decide)
  have hsecond := t.clockSecond_le
  have hnano : t.clockNano < nanosPerSecond := Nat.mod_lt _ (by decide)
  have hhyphen (rest : List Char) : Text.trimStart ('-' :: rest) = '-' :: rest :=
    trimStart_cons (by decide) rest
  have hcolon (rest : List Char) : Text.trimStart (':' :: rest) = ':' :: rest :=
    trimStart_cons (by decide) rest
  simp only [text, String.toList_ofList, List.append_assoc, List.cons_append]
  -- Part by part; blanks may stand in front of each, but none are written.
  rw [written, run_bind (run_year hfirst hlast _), run_bind (run_blanks (hhyphen _)),
    run_bind (run_mark '-' _), run_bind (run_number hmonth.1 hmonth.2 (by omega) _),
    run_bind (run_blanks (hhyphen _)), run_bind (run_mark '-' _),
    run_bind (run_number hday hdayle (by omega) _)]
  -- The `T` is read by looking at the rest of the text.
  simp only [StateT.run_bind (get : Reader (List Char)), StateT.run_get, pure_bind]
  rw [run_bind (StateT.run_set _ _), run_bind (run_number (Nat.zero_le _) hhour (by omega) _),
    run_bind (run_blanks (hcolon _)), run_bind (run_mark ':' _),
    run_bind (run_number (Nat.zero_le _) (Nat.le_of_lt_succ hminute) (by omega) _),
    run_bind (run_blanks (hcolon _)), run_bind (run_mark ':' _),
    run_bind (run_number (Nat.zero_le _) hsecond (by omega) _), run_bind (run_fraction hnano)]
  rfl

/-- A local time that is not ahead of UTC is the same in UTC. -/
theorem ofLocal?_zero (t : Timestamp) : ofLocal? t.date t.second t.nano 0 t.nano_lt = some t := by
  have hsecond := t.second_lt
  simp only [secondsPerDay] at hsecond
  -- The second stays on its day, as nothing is taken from it.
  have hlow : ¬ ((t.second : Int) - 60 * 0 < 0) := by omega
  have hhigh : (t.second : Int) - 60 * 0 < secondsPerDay := by
    simp only [secondsPerDay]
    omega
  have hrest : ((t.second : Int) - 60 * 0) % secondsPerDay = t.second := by
    simp only [secondsPerDay]
    omega
  simp only [ofLocal?, if_neg hlow, if_pos hhigh, Option.map_some, hrest, Int.toNat_natCast]

/-- The second of the day is what the clock shows, but for the leap second. -/
theorem second_parts (t : Timestamp) :
    3600 * t.parts.hour + 60 * t.parts.minute + min t.parts.second 59 = t.second := by
  have hnano := t.nano_lt
  simp only [parts, hour, minute, clockSecond, nanosPerSecond] at *
  omega

/-- Within a leap second there is a full second more in the nanoseconds. -/
theorem nano_parts (t : Timestamp) :
    (t.parts.nano + if t.parts.second = 60 then nanosPerSecond else 0) = t.nano := by
  have hnano := t.nano_lt
  change (t.clockNano + if t.clockSecond = 60 then nanosPerSecond else 0) = t.nano
  -- Nanoseconds beyond a full second only follow the second 59, which the clock shows as 60.
  by_cases hleap : t.clockSecond = 60
  · rw [if_pos hleap]
    simp only [clockNano, clockSecond, nanosPerSecond] at *
    omega
  · rw [if_neg hleap]
    simp only [clockNano, clockSecond, nanosPerSecond] at *
    omega

/-- Parts that are not ahead of UTC name the instant that has them. -/
theorem Written.instant_eq {w : Written} {t : Timestamp}
    (hdate : Date.ofParts? w.year w.month w.day = some t.date) (hahead : w.ahead = 0)
    (hsecond : 3600 * w.hour + 60 * w.minute + min w.second 59 = t.second)
    (hnano : (w.nano + if w.second = 60 then nanosPerSecond else 0) = t.nano) :
    w.instant = .ok t := by
  have hless : ¬ 24 * 60 ≤ w.ahead.natAbs := by
    rw [hahead]
    decide
  have hlocal : ofLocal? t.date t.second t.nano w.ahead t.nano_lt = some t := by
    rw [hahead]
    exact ofLocal?_zero t
  unfold Written.instant
  rw [hdate]
  dsimp only
  rw [if_neg hless]
  simp only [hsecond, hnano]
  rw [dif_pos t.nano_lt, hlocal]
  rfl

/-- The parts of a timestamp are those of no other instant. -/
theorem instant_parts (t : Timestamp) : t.parts.instant = .ok t :=
  Written.instant_eq (Date.ofParts?_self t.date) rfl (second_parts t) (nano_parts t)

/-- A timestamp is read from its text. -/
theorem read_text (t : Timestamp) : read t.text = .ok t := by
  rw [read, Reader.run_written]
  exact instant_parts t

end Timestamp

end RunTrace
