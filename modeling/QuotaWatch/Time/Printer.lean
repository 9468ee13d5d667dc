/-
# Writing timestamps

Two forms share the date, the clock and the rule for fractions: the document
form with `T` and `Z`, and the form for people with a blank and `UTC`.

Assumed of the date library: a fraction has as many groups of three places as
it needs, and a year beyond four digits a sign.

Key definitions: `Timestamp.toText`, `Timestamp.display`.
-/
import QuotaWatch.Time.Timestamp
import QuotaWatch.Decimal.Layout

namespace QuotaWatch.Time

open Decimal

/-- Four digits in the years 0 to 9999, else a sign and at least four. -/
def writeYear (year : Int) : List Char :=
  if 0 ≤ year ∧ year ≤ 9999 then padded 4 year.toNat
  else (if year < 0 then '-' else '+') :: padded 4 year.natAbs

/-- Year, month and day with dashes. -/
def Date.write (d : Date) : List Char :=
  writeYear d.year ++ '-' :: padded 2 d.month ++ '-' :: padded 2 d.day

/-- Nanoseconds behind a point, in no, three, six or nine places: the fewest that are exact. -/
def writeFraction (nanos : Nat) : List Char :=
  if nanos == 0 then []
  else if nanos % 1000000 == 0 then '.' :: padded 3 (nanos / 1000000)
  else if nanos % 1000 == 0 then '.' :: padded 6 (nanos / 1000)
  else '.' :: padded 9 nanos

namespace Timestamp

/-- Hour, minute, second and fraction. -/
def writeClock (t : Timestamp) : List Char :=
  let (hour, minute, second, nanos) := t.clock
  padded 2 hour ++ ':' :: padded 2 minute ++ ':' :: padded 2 second ++ writeFraction nanos

/-- The form in documents. -/
def toText (t : Timestamp) : String :=
  String.ofList (t.date.write ++ 'T' :: t.writeClock ++ ['Z'])

/-- The form in log fields. -/
def display (t : Timestamp) : String :=
  String.ofList (t.date.write ++ ' ' :: t.writeClock ++ [' ', 'U', 'T', 'C'])

end Timestamp

end QuotaWatch.Time
