/-!
# Timestamps

A timestamp is a UTC date and time of the proleptic Gregorian calendar with a whole number of
microseconds. A leap second is kept as second 60 of its minute. Years run from -262143 to
262142, both for the local date and time that is read and for the UTC time it stands for.

Dates are counted in days from 1970-01-01 (`daysFromCivil`, `civilFromDays`) so that an offset
from UTC can be taken off a local time; the counting works in eras of 400 years, and the
division of integers here rounds down, so it holds for years before 0 as well. The text form is `YYYY-MM-DDTHH:MM:SS.ffffffZ`, where
a year outside 0 to 9999 carries its sign and at least four digits.
-/

namespace SchemaTypes

/-- A UTC date and time with microseconds; `second` is 60 during a leap second. -/
structure Timestamp where
  year : Int
  month : Nat
  day : Nat
  hour : Nat
  minute : Nat
  second : Nat
  micros : Nat
  deriving DecidableEq

namespace Timestamp

/-- Least year a timestamp may have. -/
def minYear : Int := -262143
/-- Greatest year a timestamp may have. -/
def maxYear : Int := 262142

/-- Whether a year of the Gregorian calendar is a leap year. -/
def isLeapYear (y : Int) : Bool := (y % 4 = 0 ∧ y % 100 ≠ 0) ∨ y % 400 = 0

/-- The number of days of a month. -/
def daysInMonth (y : Int) (m : Nat) : Nat :=
  if m = 2 then (if isLeapYear y then 29 else 28)
  else if m = 4 ∨ m = 6 ∨ m = 9 ∨ m = 11 then 30
  else 31

/-- Whether a year, month and day form a date of the supported range. -/
def isValidDate (y : Int) (m d : Nat) : Bool :=
  minYear ≤ y ∧ y ≤ maxYear ∧ 1 ≤ m ∧ m ≤ 12 ∧ 1 ≤ d ∧ d ≤ daysInMonth y m

/-- Days from 1970-01-01 to the given date. -/
def daysFromCivil (y : Int) (m d : Nat) : Int :=
  let y' := if m ≤ 2 then y - 1 else y
  let era := y' / 400
  let yoe := y' - era * 400
  let mp : Int := if m > 2 then (m : Int) - 3 else (m : Int) + 9
  let doy := (153 * mp + 2) / 5 + (d : Int) - 1
  let doe := yoe * 365 + yoe / 4 - yoe / 100 + doy
  era * 146097 + doe - 719468

/-- The date `z` days after 1970-01-01. -/
def civilFromDays (z : Int) : Int × Nat × Nat :=
  let z := z + 719468
  let era := z / 146097
  let doe := z - era * 146097
  let yoe := (doe - doe / 1460 + doe / 36524 - doe / 146096) / 365
  let y := yoe + era * 400
  let doy := doe - (365 * yoe + yoe / 4 - yoe / 100)
  let mp := (5 * doy + 2) / 153
  let d := doy - (153 * mp + 2) / 5 + 1
  let m := if mp < 10 then mp + 3 else mp - 9
  ((if m ≤ 2 then y + 1 else y), m.toNat, d.toNat)

/-- The UTC timestamp of a local date and time `offset` seconds ahead of UTC, with the
fraction of a second in nanoseconds, cut to microseconds; none outside the supported range.
A leap second stays a leap second. -/
def ofLocal (y : Int) (mo d h mi s nanos : Nat) (offset : Int) : Option Timestamp :=
  let leap := s = 60
  let secs : Int := daysFromCivil y mo d * 86400 + h * 3600 + mi * 60 + (if leap then 59 else s)
  let utc := secs - offset
  let days := utc / 86400
  let inDay := (utc % 86400).toNat
  let (y', mo', d') := civilFromDays days
  if minYear ≤ y' ∧ y' ≤ maxYear then
    some { year := y', month := mo', day := d', hour := inDay / 3600,
           minute := inDay / 60 % 60, second := if leap then 60 else inDay % 60,
           micros := nanos / 1000 }
  else none

/-- A number with at least `width` digits, padded with zeros. -/
def padded (width n : Nat) : String :=
  let ds := Nat.toDigits 10 n
  String.ofList (List.replicate (width - ds.length) '0' ++ ds)

/-- A year with four digits, or with its sign when outside 0 to 9999. -/
def yearText (y : Int) : String :=
  if 0 ≤ y ∧ y ≤ 9999 then padded 4 y.toNat
  else (if y < 0 then "-" else "+") ++ padded 4 y.natAbs

/-- The text form `YYYY-MM-DDTHH:MM:SS.ffffffZ`. -/
def format (t : Timestamp) : String :=
  yearText t.year ++ "-" ++ padded 2 t.month ++ "-" ++ padded 2 t.day ++ "T" ++
    padded 2 t.hour ++ ":" ++ padded 2 t.minute ++ ":" ++ padded 2 t.second ++ "." ++
    padded 6 t.micros ++ "Z"

end Timestamp

end SchemaTypes
