import RunTrace.Timestamp.Date

/-!
# Timestamps

An instant in UTC, to the nanosecond. Leap seconds are kept: the last second of any minute may
be followed by another one, which is represented by nanoseconds beyond the first thousand
million. So two timestamps are equal exactly if they name the same instant.
-/

namespace RunTrace

/-- The number of nanoseconds in a second. -/
def nanosPerSecond : Nat := 1000000000

/-- The number of seconds in a day without leap seconds. -/
def secondsPerDay : Nat := 86400

/-- An instant in UTC. -/
structure Timestamp where
  /-- The day. -/
  date : Date
  /-- The second of the day, leap seconds not counted. -/
  second : Nat
  /-- The nanosecond of the second, beyond a full second within a leap second. -/
  nano : Nat
  /-- The second is one of the day. -/
  second_lt : second < secondsPerDay
  /-- Only the last second of a minute is followed by a leap second. -/
  nano_lt : nano < nanosPerSecond ∨ (second % 60 = 59 ∧ nano < 2 * nanosPerSecond)
  deriving DecidableEq

namespace Timestamp

/-- The instant of a local time of day that is ahead of UTC by a number of minutes, where both
are less than a day. There is none if the day in UTC is out of range. -/
def ofLocal? (date : Date) (second nano : Nat) (ahead : Int)
    (nano_lt : nano < nanosPerSecond ∨ (second % 60 = 59 ∧ nano < 2 * nanosPerSecond)) :
    Option Timestamp :=
  -- An offset of less than a day leads at most to the day before or after.
  let total : Int := second - 60 * ahead
  let day? :=
    if total < 0 then date.previous?
    else if total < secondsPerDay then some date
    else date.next?
  day?.map fun day =>
    { date := day
      second := (total % secondsPerDay).toNat
      nano
      second_lt := by
        simp only [secondsPerDay] at *
        omega
      nano_lt := nano_lt.imp_right fun h => ⟨by
        simp only [secondsPerDay, total] at *
        omega, h.2⟩ }

/-- The hour of the day. -/
def hour (t : Timestamp) : Nat :=
  t.second / 3600

/-- The minute of the hour. -/
def minute (t : Timestamp) : Nat :=
  t.second / 60 % 60

/-- The second of the minute as a clock shows it: 60 within a leap second. -/
def clockSecond (t : Timestamp) : Nat :=
  t.second % 60 + t.nano / nanosPerSecond

/-- The nanosecond of the second that the clock shows. -/
def clockNano (t : Timestamp) : Nat :=
  t.nano % nanosPerSecond

end Timestamp

end RunTrace
