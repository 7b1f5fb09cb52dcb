import ParamQuery.Text.Numeral

/-!
# Calendar

Dates of the proleptic Gregorian calendar as counts of days since 1970-01-01, times of day as counts
of microseconds, and their ISO texts.

## Main definitions

* `Date.ofEpochDays`, `Date.toEpochDays` — the two forms of a date.
* `Date.inRange` — the years that have an ISO text here.
* `isoDate`, `isoClock`, `isoInstant?`, `isoDay?` — the texts.
-/

namespace ParamQuery

open Text

/-- A day of the proleptic Gregorian calendar; year 0 comes before year 1. -/
structure Date where
  year : Int
  month : Nat
  day : Nat
  deriving DecidableEq, Repr

namespace Date

/-- Whether a year has a 29th of February. -/
def isLeap (year : Int) : Bool :=
  year % 4 == 0 && (year % 100 != 0 || year % 400 == 0)

def daysInMonth (year : Int) (month : Nat) : Nat :=
  if month = 2 then (if isLeap year then 29 else 28)
  else if month = 4 ∨ month = 6 ∨ month = 9 ∨ month = 11 then 30
  else 31

def isValid (d : Date) : Bool :=
  1 ≤ d.month && d.month ≤ 12 && 1 ≤ d.day && d.day ≤ daysInMonth d.year d.month

/-- The date that lies `days` days after 1970-01-01. Years are counted from March, so that a leap
day ends its year, and in cycles of 400 years of equal length. -/
def ofEpochDays (days : Int) : Date :=
  let shifted := days + 719468
  let cycle := shifted / 146097
  let dayOfCycle := shifted % 146097
  let yearOfCycle :=
    (dayOfCycle - dayOfCycle / 1460 + dayOfCycle / 36524 - dayOfCycle / 146096) / 365
  let dayOfYear := dayOfCycle - (365 * yearOfCycle + yearOfCycle / 4 - yearOfCycle / 100)
  let march := (5 * dayOfYear + 2) / 153
  let month := if march < 10 then march + 3 else march - 9
  { year := yearOfCycle + cycle * 400 + (if month ≤ 2 then 1 else 0)
    month := month.toNat
    day := (dayOfYear - (153 * march + 2) / 5 + 1).toNat }

/-- The number of days from 1970-01-01 to a date. -/
def toEpochDays (d : Date) : Int :=
  let year := if d.month ≤ 2 then d.year - 1 else d.year
  let cycle := year / 400
  let yearOfCycle := year % 400
  let march : Int := ((d.month : Int) + 9) % 12
  let dayOfYear := (153 * march + 2) / 5 + d.day - 1
  let dayOfCycle := yearOfCycle * 365 + yearOfCycle / 4 - yearOfCycle / 100 + dayOfYear
  cycle * 146097 + dayOfCycle - 719468

/-- The years from -262143 to 262142. -/
def inRange (d : Date) : Bool := -262143 ≤ d.year && d.year ≤ 262142

example : ofEpochDays 19783 = ⟨2024, 3, 1⟩ := by decide
example : ofEpochDays (-719529) = ⟨-1, 12, 31⟩ := by decide
example : toEpochDays ⟨2000, 2, 29⟩ = 11016 := by decide

end Date

/-- Four digits for the years 0 to 9999; other years have a sign and at least four digits. -/
def isoYear (year : Int) : List Char :=
  if 0 ≤ year ∧ year ≤ 9999 then padded 4 year.toNat
  else (if year < 0 then '-' else '+') :: padded 4 year.natAbs

/-- Year, month and day with hyphens between them. -/
def isoDate (d : Date) : List Char :=
  isoYear d.year ++ '-' :: padded 2 d.month ++ '-' :: padded 2 d.day

/-- The microseconds of a day. -/
def microsPerDay : Nat := 86400000000

/-- The count of days that stands for the end of time; its negative stands for the beginning. -/
def endOfDays : Int := IntegerType.int32.greatest

/-- The count of microseconds that stands for the end of time; its negative stands for the
beginning. -/
def endOfTime : Int := IntegerType.int64.greatest

/-- Hours, minutes and seconds with colons between them. -/
def clock (micros : Nat) : List Char :=
  let seconds := micros / 1000000
  padded 2 (seconds / 3600) ++ ':' :: padded 2 (seconds / 60 % 60) ++ ':' :: padded 2 (seconds % 60)

/-- The time of day with a fraction of no, three or six digits, as few as are exact. -/
def isoClock (micros : Nat) : List Char :=
  let part := micros % 1000000
  clock micros ++
    (if part = 0 then []
    else if part % 1000 = 0 then '.' :: padded 3 (part / 1000)
    else '.' :: padded 6 part)

/-- The text of the instant that lies `micros` microseconds after the start of 1970, unless its year
has none. -/
def isoInstant? (micros : Int) : Option (List Char) :=
  let date := Date.ofEpochDays (micros / microsPerDay)
  if date.inRange then
    some (isoDate date ++ 'T' :: isoClock (micros % microsPerDay).toNat ++ ['Z'])
  else none

/-- The text of the date that lies `days` days after 1970-01-01, unless its year has none. -/
def isoDay? (days : Int) : Option (List Char) :=
  let date := Date.ofEpochDays days
  if date.inRange then some (isoDate date) else none

example : isoInstant? (-999999) = some "1969-12-31T23:59:59.000001Z".toList := by decide
example : isoDay? 2932897 = some "+10000-01-01".toList := by decide

end ParamQuery
