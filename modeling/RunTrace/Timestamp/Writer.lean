import RunTrace.Timestamp.Basic
import RunTrace.Decimal.Basic

/-!
# Writing timestamps

A timestamp is written in UTC in the form of RFC 3339, with no digits behind the second if
none are needed and otherwise with three, six or nine of them. Years that do not have four
digits carry a sign.
-/

namespace RunTrace.Timestamp

/-- The digits of a number, filled up with zeros to a width. -/
def padded (width n : Nat) : List Char :=
  let ds := Decimal.digits n
  List.replicate (width - ds.length) '0' ++ ds

/-- The text of a year: four digits, or a sign and at least four digits. -/
def yearText (year : Int) : List Char :=
  if 0 ≤ year ∧ year ≤ 9999 then padded 4 year.toNat
  else (if year < 0 then '-' else '+') :: padded 4 year.natAbs

/-- The text of the nanoseconds behind the second. -/
def fractionText (nano : Nat) : List Char :=
  if nano = 0 then []
  else if nano % 1000000 = 0 then '.' :: padded 3 (nano / 1000000)
  else if nano % 1000 = 0 then '.' :: padded 6 (nano / 1000)
  else '.' :: padded 9 nano

/-- The text of a timestamp. -/
def text (t : Timestamp) : String :=
  String.ofList (
    yearText t.date.year ++ '-' :: padded 2 t.date.month ++ '-' :: padded 2 t.date.day
      ++ 'T' :: padded 2 t.hour ++ ':' :: padded 2 t.minute ++ ':' :: padded 2 t.clockSecond
      ++ fractionText t.clockNano ++ ['Z'])

end RunTrace.Timestamp
