/-
# The civil calendar

Dates of the proleptic Gregorian calendar and their day numbers. Years are
counted from March, so that the leap day is the last day of a year; four
hundred such years always have 146097 days.

Key definitions: `Date`, `Date.isValid`, `Date.toDays`, `Date.ofDays`.
-/

namespace QuotaWatch.Time

/-- A day of the civil calendar. -/
structure Date where
  year : Int
  month : Nat
  day : Nat
deriving Repr, DecidableEq

/-- Whether February has twenty-nine days. -/
def isLeapYear (year : Int) : Bool := year % 4 == 0 && (year % 100 != 0 || year % 400 == 0)

/-- The number of days of a month, zero for what is not a month. -/
def daysInMonth (year : Int) (month : Nat) : Nat :=
  if month == 2 then (if isLeapYear year then 29 else 28)
  else if month == 4 || month == 6 || month == 9 || month == 11 then 30
  else if 1 ≤ month && month ≤ 12 then 31
  else 0

/-- Whether the calendar has the date. -/
def Date.isValid (d : Date) : Bool := 1 ≤ d.day && d.day ≤ daysInMonth d.year d.month

/-- Days from 1 March of year 0 to 1 January 1970. -/
def epochDays : Int := 719468

/-- Days from 1 March to the start of a month, months counted from March. -/
def daysBeforeMonth (month : Int) : Int := (153 * month + 2) / 5

/-- Days since 1 January 1970. -/
def Date.toDays (d : Date) : Int :=
  let year := if d.month ≤ 2 then d.year - 1 else d.year
  let month : Int := if d.month ≤ 2 then d.month + 9 else d.month - 3
  let ofEra := year % 400
  year / 400 * 146097 + (ofEra * 365 + ofEra / 4 - ofEra / 100) + daysBeforeMonth month +
    (d.day - 1) - epochDays

/-- The date of a day number. -/
def Date.ofDays (days : Int) : Date :=
  let fromMarch := days + epochDays
  let inEra := fromMarch % 146097
  let ofEra := (inEra - inEra / 1460 + inEra / 36524 - inEra / 146096) / 365
  let inYear := inEra - (365 * ofEra + ofEra / 4 - ofEra / 100)
  let month := (5 * inYear + 2) / 153
  let year := ofEra + fromMarch / 146097 * 400
  let day := (inYear - daysBeforeMonth month + 1).toNat
  if month < 10 then ⟨year, (month + 3).toNat, day⟩ else ⟨year + 1, (month - 9).toNat, day⟩

end QuotaWatch.Time
