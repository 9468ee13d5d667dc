/-
# Reading timestamps

The accepted texts are those of RFC 3339 with some freedom: blanks in front of
each number and each mark, numbers with fewer digits, a year of any length
behind a sign, a small `t` or a blank between date and time, `UTC` for the
zone, and any run of colons and blanks inside the offset.

Each reader takes the rest of the text and gives what it read with the rest
behind it.

Assumed of the date library: its reader takes these texts and no others, keeps
nine places of a fraction, and takes a sixtieth second for a leap second.

Key definitions: `Timestamp.ofText?`.
-/
import QuotaWatch.Time.Timestamp
import QuotaWatch.Decimal.Layout
import QuotaWatch.Text.Blank

namespace QuotaWatch.Time

open Text

/-- One number of at least one and at most `width` digits. -/
def digits? (width : Nat) (cs : List Char) : Option (Nat × List Char) :=
  let run := (cs.take width).takeWhile Char.isDigit
  if run.isEmpty then none else some (Decimal.value run, cs.drop run.length)

/-- A number behind optional blanks. -/
def number? (width : Nat) (cs : List Char) : Option (Nat × List Char) :=
  digits? width (trimLeft cs)

/-- A year: up to four digits, or any number of them behind a sign. -/
def year? (cs : List Char) : Option (Int × List Char) :=
  match trimLeft cs with
  | '-' :: rest => (digits? rest.length rest).map fun (n, rest) => (-(n : Int), rest)
  | '+' :: rest => (digits? rest.length rest).map fun (n, rest) => ((n : Int), rest)
  | rest => (digits? 4 rest).map fun (n, rest) => ((n : Int), rest)

/-- The rest behind a mark and the blanks in front of it. -/
def mark? (mark : Char) (cs : List Char) : Option (List Char) :=
  match trimLeft cs with
  | c :: rest => if c == mark then some rest else none
  | [] => none

/-- A fraction of a second in nanoseconds, if one follows; digits behind the
ninth are passed over. -/
def fraction? (cs : List Char) : Option (Nat × List Char) :=
  match cs with
  | '.' :: rest =>
    let run := (rest.take 9).takeWhile Char.isDigit
    if run.isEmpty then none
    else some (Decimal.value run * Nat.pow 10 (9 - run.length), rest.dropWhile Char.isDigit)
  | _ => some (0, cs)

/-- Two digits. -/
def twoDigits? : List Char → Option (Nat × List Char)
  | a :: b :: rest =>
    if a.isDigit && b.isDigit then some (Decimal.value [a, b], rest) else none
  | _ => none

/-- Minutes of an offset behind its sign. -/
def offsetMinutes? (cs : List Char) : Option (Int × List Char) := do
  let (hours, rest) ← twoDigits? cs
  let (minutes, rest) ← twoDigits? (rest.dropWhile fun c => c == ':' || isBlank c)
  if minutes < 60 then some ((hours * 60 + minutes : Nat), rest) else none

/-- The offset from universal time in minutes. -/
def zone? (cs : List Char) : Option (Int × List Char) :=
  match trimLeft cs with
  | [] => none
  | sign :: rest =>
    if (sign :: rest.take 2).map Char.toUpper == ['U', 'T', 'C'] then some (0, rest.drop 2)
    else if sign == 'Z' || sign == 'z' then some (0, rest)
    else if sign == '+' then offsetMinutes? rest
    else if sign == '-' || sign == '\u2212' then
      (offsetMinutes? rest).map fun (minutes, rest) => (-minutes, rest)
    else none

/-- A date of the calendar, within the years that timestamps cover. -/
def date? (cs : List Char) : Option (Date × List Char) := do
  let (year, rest) ← year? cs
  let (month, rest) ← (mark? '-' rest).bind (number? 2)
  let (day, rest) ← (mark? '-' rest).bind (number? 2)
  let d : Date := ⟨year, month, day⟩
  if -262143 ≤ year ∧ year ≤ 262142 ∧ d.isValid then some (d, rest) else none

/-- The rest behind the letter or the blank between date and time. -/
def divider? : List Char → Option (List Char)
  | c :: rest => if c == 'T' || c == 't' || c == ' ' then some rest else none
  | [] => none

/-- Nanoseconds since midnight, and whether the second is a leap second. -/
def clock? (cs : List Char) : Option ((Nat × Bool) × List Char) := do
  let (hour, rest) ← number? 2 cs
  let (minute, rest) ← (mark? ':' rest).bind (number? 2)
  let (second, rest) ← (mark? ':' rest).bind (number? 2)
  let (nanos, rest) ← fraction? rest
  if hour < 24 ∧ minute < 60 ∧ second ≤ 60 then
    let seconds := hour * 3600 + minute * 60 + min second 59
    some ((seconds * 1000000000 + nanos, second == 60), rest)
  else none

/-- The point in time that a text names. -/
def Timestamp.ofText? (text : String) : Option Timestamp := do
  let (d, rest) ← date? text.toList
  let ((ofDay, leap), rest) ← (divider? rest).bind clock?
  let (minutes, rest) ← zone? rest
  let t := Timestamp.ofParts d ofDay leap
  let t : Timestamp := ⟨t.nanos - minutes * 60 * 1000000000, leap⟩
  if rest.all isBlank ∧ minutes.natAbs < 1440 ∧ earliest.nanos ≤ t.nanos ∧
      t.nanos < afterLatest.nanos then some t
  else none

end QuotaWatch.Time
