/-
# Dates and times of a TOML text

A date, a time of day, or both, and then perhaps the offset of a zone. They are
taken as texts of one form: `T` between date and time, `Z` for no offset, no
zeros at the end of a fraction, and nine places of it at most.

Key definitions: `readMoment?`.
Key theorems: `readTwo?_length`.
-/
import QuotaWatch.Decimal.Layout
import QuotaWatch.Time.Calendar

namespace QuotaWatch.Toml

/-- Two digits of a number within bounds. -/
def readTwo? (least most : Nat) : List Char → Option (List Char × List Char)
  | a :: b :: rest =>
    if a.isDigit && b.isDigit && least ≤ Decimal.value [a, b] && Decimal.value [a, b] ≤ most then
      some ([a, b], rest)
    else none
  | _ => none

/-- The text behind a mark. -/
def behind? (mark : Char) : List Char → Option (List Char)
  | c :: rest => if c == mark then some rest else none
  | [] => none

/-- A date that the calendar has. -/
def readDate? (cs : List Char) : Option (List Char × List Char) := do
  let (century, rest) ← readTwo? 0 99 cs
  let (ofCentury, rest) ← readTwo? 0 99 rest
  let year := century ++ ofCentury
  let (month, rest) ← readTwo? 1 12 (← behind? '-' rest)
  let (day, rest) ← readTwo? 1 31 (← behind? '-' rest)
  if Decimal.value day ≤ Time.daysInMonth (Decimal.value year) (Decimal.value month) then
    some (year ++ '-' :: month ++ '-' :: day, rest)
  else none

/-- A fraction of a second behind its point, if there is one. -/
def readFraction (cs : List Char) : List Char × List Char :=
  match cs with
  | '.' :: rest =>
    let run := rest.takeWhile Char.isDigit
    if run.isEmpty then ([], cs)
    else
      let digits := ((run.take 9).reverse.dropWhile (· == '0')).reverse
      (if digits.isEmpty then [] else '.' :: digits, rest.dropWhile Char.isDigit)
  | _ => ([], cs)

/-- A time of day; a minute may have a second more than sixty. -/
def readTime? (cs : List Char) : Option (List Char × List Char) := do
  let (hour, rest) ← readTwo? 0 23 cs
  let (minute, rest) ← readTwo? 0 59 (← behind? ':' rest)
  let (second, rest) ← readTwo? 0 60 (← behind? ':' rest)
  let (fraction, rest) := readFraction rest
  some (hour ++ ':' :: minute ++ ':' :: second ++ fraction, rest)

/-- The offset of a zone. No offset has no sign. -/
def readOffset? : List Char → Option (List Char × List Char)
  | [] => none
  | c :: rest =>
    if c == 'Z' || c == 'z' then some (['Z'], rest)
    else if c == '+' || c == '-' then do
      let (hour, rest) ← readTwo? 0 23 rest
      let (minute, rest) ← readTwo? 0 59 (← behind? ':' rest)
      let sign := if Decimal.value (hour ++ minute) = 0 then '+' else c
      some (sign :: hour ++ ':' :: minute, rest)
    else none

/-- What a reader reads, or nothing where it reads none. -/
def perhaps (read : List Char → Option (List Char × List Char)) (cs : List Char) :
    List Char × List Char :=
  (read cs).getD ([], cs)

/-- A time of day behind a date, with an offset if there is one. -/
def readClock? : List Char → Option (List Char × List Char)
  | [] => none
  | c :: rest =>
    if c == 'T' || c == 't' || c == ' ' then do
      let (time, rest) ← readTime? rest
      let (offset, rest) := perhaps readOffset? rest
      some ('T' :: time ++ offset, rest)
    else none

/-- The date or the time at the start of a text. -/
def readMoment? (cs : List Char) : Option (String × List Char) :=
  match readDate? cs with
  | some (date, rest) =>
    let (clock, rest) := perhaps readClock? rest
    some (String.ofList (date ++ clock), rest)
  | none => (readTime? cs).map fun (time, rest) => (String.ofList time, rest)

/-- Two digits are read, and the rest is what stands behind them. -/
theorem readTwo?_length {least most : Nat} {cs digits rest : List Char}
    (h : readTwo? least most cs = some (digits, rest)) : digits.length = 2 ∧ cs = digits ++ rest := by
  unfold readTwo? at h
  split at h
  · split at h
    · cases h
      simp
    · cases h
  · cases h

end QuotaWatch.Toml
