import RunTrace.Timestamp.Basic
import RunTrace.Decimal.Basic
import RunTrace.Text.Blank

/-!
# Reading timestamps

A relaxed form of RFC 3339. A date, a `T` or a blank, a time of day and an offset from UTC
follow each other; blanks may stand in front of every number and mark, numbers may have fewer
digits, the year may carry a sign, and the offset may be `UTC`. The text is read from left to
right, and a number out of its range is an error as soon as it has been read.
-/

namespace RunTrace.Timestamp

/-- Why a text is not a timestamp. -/
inductive ReadError where
  /-- The text ends too early. -/
  | tooShort
  /-- Some character does not fit. -/
  | invalid
  /-- A number is out of range, or there is no such day. -/
  | outOfRange
  /-- There is more text behind the timestamp. -/
  | tooLong
  /-- The instant is out of range. -/
  | impossible
  deriving DecidableEq, Repr

/-- The text shown for an error. -/
def ReadError.message : ReadError → String
  | tooShort => "premature end of input"
  | invalid => "input contains invalid characters"
  | outOfRange => "input is out of range"
  | tooLong => "trailing input"
  | impossible => "no possible date and time matching input"

/-- A reader of the start of a text. -/
abbrev Reader (α : Type) := StateT (List Char) (Except ReadError) α

namespace Reader

/-- Skips blanks. -/
def blanks : Reader Unit :=
  modify Text.trimStart

/-- Reads one or more digits, but at most `limit` of them; the rest is left. -/
def digits (limit : Option Nat) : Reader (List Char) := do
  let text ← get
  let ds := (match limit with
    | some n => text.take n
    | none => text).takeWhile Char.isDigit
  if ds.isEmpty then throw (if text.isEmpty then .tooShort else .invalid)
  set (text.drop ds.length)
  return ds

/-- Reads a number of at most two digits between two bounds, after blanks. -/
def number (low high : Nat) : Reader Nat := do
  blanks
  let n := Decimal.natOfDigits (← digits (some 2))
  if n < low ∨ high < n then throw .outOfRange
  return n

/-- Reads the given character. -/
def mark (c : Char) : Reader Unit := do
  match ← get with
  | [] => throw .tooShort
  | d :: rest => if d = c then set rest else throw .invalid

/-- Reads a year: up to four digits, or a sign and any number of digits. -/
def year : Reader Int := do
  blanks
  let y : Int ← match ← get with
    | '-' :: rest => do
      set rest
      pure (-(Decimal.natOfDigits (← digits none) : Int))
    | '+' :: rest => do
      set rest
      pure (Decimal.natOfDigits (← digits none))
    | _ => pure (Decimal.natOfDigits (← digits (some 4)))
  if y < Int32.minValue.toInt ∨ Int32.maxValue.toInt < y then throw .outOfRange
  return y

/-- Reads the fraction of a second, if there is one, as nanoseconds. Digits behind the ninth
are dropped. -/
def fraction : Reader Nat := do
  match ← get with
  | '.' :: rest => do
    set rest
    let ds ← digits none
    return Decimal.natOfDigits ((ds ++ List.replicate 9 '0').take 9)
  | _ => return 0

/-- Reads two digits directly. -/
def twoDigits : Reader Nat := do
  match ← get with
  | a :: b :: rest =>
    if a.isDigit ∧ b.isDigit then
      set rest
      return Decimal.natOfDigits [a, b]
    else throw .invalid
  | [c] => throw (if c.utf8Size < 2 then .tooShort else .invalid)
  | [] => throw .tooShort

/-- Reads the hours and minutes of an offset, with any number of colons and blanks between
them, as minutes. -/
def hoursAndMinutes : Reader Int := do
  let hours ← twoDigits
  modify (·.dropWhile fun c => c = ':' || Text.isBlank c)
  let minutes ← twoDigits
  if 60 ≤ minutes then throw .outOfRange
  return 60 * hours + minutes

/-- Whether a text starts with `UTC` in letters of any case. -/
def startsWithUtc (text : List Char) : Bool :=
  (text.take 3).map Char.toUpper = ['U', 'T', 'C']

/-- Reads the offset from UTC, in minutes. -/
def offset : Reader Int := do
  blanks
  let text ← get
  if startsWithUtc text then
    set (text.drop 3)
    return 0
  match text with
  | [] => throw .tooShort
  | c :: rest =>
    set rest
    match c with
    | 'Z' | 'z' => return 0
    | '+' => hoursAndMinutes
    | '-' | '\u2212' => return -(← hoursAndMinutes)
    | _ => throw .invalid

end Reader

/-- What is written: a local time and its offset. -/
structure Written where
  year : Int
  month : Nat
  day : Nat
  hour : Nat
  minute : Nat
  /-- The second, up to 60. -/
  second : Nat
  nano : Nat
  /-- How many minutes the local time is ahead of UTC. -/
  ahead : Int

/-- Reads the parts of a timestamp. -/
def Reader.written : Reader Written := do
  let year ← year
  blanks
  mark '-'
  let month ← number 1 12
  blanks
  mark '-'
  let day ← number 1 31
  match ← get with
  | 'T' :: rest | 't' :: rest | ' ' :: rest => set rest
  | [] => throw .tooShort
  | _ => throw .invalid
  let hour ← number 0 23
  blanks
  mark ':'
  let minute ← number 0 59
  blanks
  mark ':'
  let second ← number 0 60
  let nano ← fraction
  let ahead ← offset
  blanks
  unless (← get).isEmpty do throw .tooLong
  return { year, month, day, hour, minute, second, nano, ahead }

/-- The instant that is written. The second 60 is a leap second of any minute. -/
def Written.instant (w : Written) : Except ReadError Timestamp := do
  let some date := Date.ofParts? w.year w.month w.day | throw .outOfRange
  if 24 * 60 ≤ w.ahead.natAbs then throw .outOfRange
  let second := 3600 * w.hour + 60 * w.minute + min w.second 59
  let nano := w.nano + if w.second = 60 then nanosPerSecond else 0
  if h : nano < nanosPerSecond ∨ (second % 60 = 59 ∧ nano < 2 * nanosPerSecond) then
    match ofLocal? date second nano w.ahead h with
    | some t => return t
    | none => throw .impossible
  else throw .outOfRange

/-- Reads a timestamp. -/
def read (text : String) : Except ReadError Timestamp := do
  let (written, _) ← Reader.written.run text.toList
  written.instant

end RunTrace.Timestamp
