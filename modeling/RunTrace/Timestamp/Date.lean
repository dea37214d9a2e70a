/-!
# Calendar dates

Days of the proleptic Gregorian calendar, within a fixed range of years.
-/

namespace RunTrace

namespace Date

/-- The first year that a date can have. -/
def firstYear : Int := -262143

/-- The last year that a date can have. -/
def lastYear : Int := 262142

/-- Every fourth year is a leap year, but of the full centuries only every fourth. -/
def isLeapYear (year : Int) : Bool :=
  year % 4 = 0 && (year % 100 ≠ 0 || year % 400 = 0)

/-- The number of days of a month; none for a number that is no month. -/
def daysInMonth (year : Int) : Nat → Nat
  | 1 | 3 | 5 | 7 | 8 | 10 | 12 => 31
  | 4 | 6 | 9 | 11 => 30
  | 2 => if isLeapYear year then 29 else 28
  | _ => 0

/-- The day exists, and its year is in range. -/
def Valid (year : Int) (month day : Nat) : Prop :=
  firstYear ≤ year ∧ year ≤ lastYear ∧ 1 ≤ day ∧ day ≤ daysInMonth year month

/-- Whether a day exists is decidable. -/
instance (year : Int) (month day : Nat) : Decidable (Valid year month day) := by
  unfold Valid
  infer_instance

end Date

/-- A day of the calendar. -/
structure Date where
  /-- The year; the one before year 1 is year 0. -/
  year : Int
  /-- The month, from 1 to 12. -/
  month : Nat
  /-- The day of the month, from 1. -/
  day : Nat
  /-- The day exists. -/
  valid : Date.Valid year month day
  deriving DecidableEq

namespace Date

/-- The date with the given parts, if there is such a day. -/
def ofParts? (year : Int) (month day : Nat) : Option Date :=
  if h : Valid year month day then some ⟨year, month, day, h⟩ else none

@[simp]
theorem ofParts?_self (date : Date) : ofParts? date.year date.month date.day = some date := by
  simp [ofParts?, date.valid]

/-- The following day, unless it is out of range. -/
def next? (date : Date) : Option Date :=
  if date.day < daysInMonth date.year date.month then
    ofParts? date.year date.month (date.day + 1)
  else if date.month < 12 then ofParts? date.year (date.month + 1) 1
  else ofParts? (date.year + 1) 1 1

/-- The day before, unless it is out of range. -/
def previous? (date : Date) : Option Date :=
  if 1 < date.day then ofParts? date.year date.month (date.day - 1)
  else if 1 < date.month then
    ofParts? date.year (date.month - 1) (daysInMonth date.year (date.month - 1))
  else ofParts? (date.year - 1) 12 31

end Date

end RunTrace
