/-
# Numbers of a JSON text

A number without point and exponent that fits into 64 bits stays whole. Any
other becomes a float: its digits are gathered into one 64-bit significand as
far as they fit, and the significand is multiplied or divided once by a power
of ten.

Assumed of the library that reads JSON: this is how it makes floats, which need
not be the floats nearest to what is written.

Key definitions: `Number.read`, `gather`, `Number.ofParts`.
Key theorems: `gather_lt`.
-/
import QuotaWatch.Json.Basic
import QuotaWatch.Decimal.Binary
import QuotaWatch.Decimal.Layout

namespace QuotaWatch.Json

open Decimal

/-- Put digits behind a significand as long as it stays a 64-bit word; gives
the significand and the number of digits left over. -/
def gather (significand : Nat) : List Char → Nat × Nat
  | [] => (significand, 0)
  | d :: ds =>
    let next := significand * 10 + value [d]
    if next ≤ maxWord then gather next ds else (significand, ds.length + 1)

/-- A power of ten that is a float, for exponents up to 308. -/
def tenTo (exponent : Nat) : Float := Float.ofScientific 1 false exponent

/-- A significand divided by a power of ten, in two steps where the power is
beyond the floats. -/
def lowered (x : Float) (exponent : Nat) : Float :=
  if exponent ≤ 308 then x / tenTo exponent
  else if exponent ≤ 616 then x / tenTo 308 / tenTo (exponent - 308)
  else 0

/-- The float `significand * 10 ^ exponent`, with a sign. -/
def Number.ofParts (isBelow : Bool) (significand : Nat) (exponent : Int) : Number :=
  let start := (UInt64.ofNat significand).toFloat
  let signed (x : Float) : Number := .real (if isBelow then -x else x)
  if exponent < 0 then signed (lowered start exponent.natAbs)
  else if significand == 0 then signed start
  else if exponent ≤ 308 then
    let x := start * tenTo exponent.natAbs
    if x.isInf then .excessive else signed x
  else .excessive

/-- The number of a significand with an exponent as written. An exponent beyond
32 bits is only judged by its sign. -/
def Number.ofExponent (isBelow : Bool) (significand : Nat) (start : Int) (exponent : Int) : Number :=
  if exponent.natAbs ≤ 2147483647 then .ofParts isBelow significand (start + exponent)
  else if significand == 0 || exponent < 0 then .ofParts isBelow 0 0
  else .excessive

/-- A whole number of digits that all fit. -/
def Number.ofWhole (isBelow : Bool) (n : Nat) : Number :=
  if !isBelow then .unsigned (UInt64.ofNat n)
  else if n == 0 || n > 0x8000000000000000 then .ofParts true n 0
  else .negative (-(n : Int))

/-- The run of digits at the start of a text, and the rest. -/
def digitRun (cs : List Char) : List Char × List Char :=
  (cs.takeWhile Char.isDigit, cs.dropWhile Char.isDigit)

/-- An exponent behind its letter. -/
def readExponent (cs : List Char) : Option (Int × List Char) :=
  let (isBelow, rest) := match cs with
    | '-' :: rest => (true, rest)
    | '+' :: rest => (false, rest)
    | rest => (false, rest)
  let (run, rest) := digitRun rest
  if run.isEmpty then none
  else some (if isBelow then -(value run : Int) else value run, rest)

/-- What follows the significand: an exponent, or the end of the number. -/
def readScale (isBelow : Bool) (significand : Nat) (start : Int) (cs : List Char) :
    Option (Number × List Char) :=
  match cs with
  | 'e' :: rest | 'E' :: rest =>
    (readExponent rest).map fun (exponent, rest) =>
      (Number.ofExponent isBelow significand start exponent, rest)
  | rest => some (Number.ofParts isBelow significand start, rest)

/-- What follows the digits before the point. -/
def readFraction (isBelow : Bool) (whole : List Char) (cs : List Char) :
    Option (Number × List Char) :=
  let (significand, left) := gather 0 whole
  match cs with
  | '.' :: rest =>
    let (run, rest) := digitRun rest
    if run.isEmpty then none
    else
      let (significand, unused) := gather significand run
      readScale isBelow significand ((left : Int) - (run.length - unused : Nat)) rest
  | 'e' :: _ | 'E' :: _ => readScale isBelow significand left cs
  | rest =>
    if left == 0 then some (Number.ofWhole isBelow significand, rest)
    else some (Number.ofParts isBelow significand left, rest)

/-- The number at the start of a text, without a sign: no digits may follow a leading zero. -/
def readUnsigned (isBelow : Bool) (cs : List Char) : Option (Number × List Char) :=
  let (run, rest) := digitRun cs
  if run.isEmpty || (run.length > 1 && run.head? == some '0') then none
  else readFraction isBelow run rest

/-- The number at the start of a text, with the rest behind it. -/
def Number.read (cs : List Char) : Option (Number × List Char) :=
  match cs with
  | '-' :: rest => readUnsigned true rest
  | rest => readUnsigned false rest

/-- The significand stays a 64-bit word. -/
theorem gather_lt : ∀ (ds : List Char) (n : Nat), n ≤ maxWord → (gather n ds).1 ≤ maxWord
  | [], _, h => h
  | d :: ds, n, h => by
    simp only [gather]
    split
    · exact gather_lt ds _ ‹_›
    · exact h

end QuotaWatch.Json
