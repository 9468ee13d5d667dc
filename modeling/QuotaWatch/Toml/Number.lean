/-
# Numbers of a TOML text

A number is one word: a whole one in base ten, or in another base behind its
mark, or one with a fraction or an exponent. Underscores may stand between
digits.

Key definitions: `readNumber?`.
Key theorems: `ungroup?_digits`.
-/
import QuotaWatch.Config.Key
import QuotaWatch.Decimal.Reader
import QuotaWatch.Text.Hex

namespace QuotaWatch.Toml

open Config (Value isShort)

/-- The digits of a row in which single underscores stand between digits. -/
def ungroup? (isDigit : Char → Bool) : List Char → Option (List Char)
  | [] => none
  | [d] => if isDigit d then some [d] else none
  | d :: '_' :: rest => if isDigit d then (ungroup? isDigit rest).map (d :: ·) else none
  | d :: rest => if isDigit d then (ungroup? isDigit rest).map (d :: ·) else none

/-- The digits of a whole number in base ten: no digits follow a leading zero. -/
def wholeDigits? (cs : List Char) : Option (List Char) :=
  (ungroup? Char.isDigit cs).filter fun ds => ds.length == 1 || ds.head? != some '0'

/-- A whole number, unless it is beyond the signed 64-bit range. -/
def ofWhole? (n : Int) : Option Value := if isShort n then some (.whole n) else none

/-- A row of digits in a base up to sixteen. -/
def readInBase? (base : Nat) (cs : List Char) : Option Value := do
  let isDigit (c : Char) : Bool := (Text.hexDigit? c).any (· < base)
  let ds ← ungroup? isDigit cs
  let digits ← ds.mapM Text.hexDigit?
  ofWhole? (digits.foldl (fun n d => n * base + d) 0 : Nat)

/-- The digits of an exponent with its sign. -/
def exponent? (cs : List Char) : Option (List Char) :=
  match cs with
  | '-' :: rest => (ungroup? Char.isDigit rest).map ('-' :: ·)
  | '+' :: rest => ungroup? Char.isDigit rest
  | rest => ungroup? Char.isDigit rest

/-- What stands before a character, and what stands behind it if it is there. -/
def cutAt (isCut : Char → Bool) (cs : List Char) : List Char × Option (List Char) :=
  match cs.dropWhile (!isCut ·) with
  | [] => (cs, none)
  | _ :: rest => (cs.takeWhile (!isCut ·), some rest)

/-- The digits before the point and, behind a point, those after it. -/
def mantissa? (cs : List Char) : Option (List Char) :=
  match cutAt (· == '.') cs with
  | (whole, none) => wholeDigits? whole
  | (whole, some fraction) => do
    some ((← wholeDigits? whole) ++ '.' :: (← ungroup? Char.isDigit fraction))

/-- A number with a fraction or an exponent, without underscores. -/
def fractional? (cs : List Char) : Option (List Char) :=
  match cutAt (fun c => c == 'e' || c == 'E') cs with
  | (start, none) => if start.contains '.' then mantissa? start else none
  | (start, some rest) => do some ((← mantissa? start) ++ 'e' :: (← exponent? rest))

/-- A number without its sign. One beyond the floats is no number, unless it is
below zero. -/
def readMagnitude? (isBelow : Bool) (cs : List Char) : Option Value :=
  let sign (x : List Char) : String := String.ofList (if isBelow then '-' :: x else x)
  if cs == ['i', 'n', 'f'] || cs == ['n', 'a', 'n'] then (Decimal.readFloat? (sign cs)).map .real
  else
    match wholeDigits? cs with
    | some ds =>
      let n : Int := Decimal.value ds
      ofWhole? (if isBelow then -n else n)
    | none => do
      let x ← Decimal.readFloat? (sign (← fractional? cs))
      if x.isInf && !isBelow then none else some (.real x)

/-- The number that a word stands for. -/
def readNumber? : List Char → Option Value
  | '0' :: 'x' :: rest => readInBase? 16 rest
  | '0' :: 'o' :: rest => readInBase? 8 rest
  | '0' :: 'b' :: rest => readInBase? 2 rest
  | '-' :: rest => readMagnitude? true rest
  | '+' :: rest => readMagnitude? false rest
  | rest => readMagnitude? false rest

/-- Only digits are left of a row. -/
theorem ungroup?_digits {isDigit : Char → Bool} {cs : List Char} :
    ∀ {ds : List Char}, ungroup? isDigit cs = some ds → ∀ d ∈ ds, isDigit d = true := by
  fun_induction ungroup? isDigit cs <;> intro ds h
  · cases h
  · cases h
    simpa
  · cases h
  all_goals first
    | cases h
    | rename_i ih
      obtain ⟨tail, htail, rfl⟩ := Option.map_eq_some_iff.mp h
      intro d hd
      rcases List.mem_cons.mp hd with rfl | hd
      · assumption
      · exact ih htail d hd

end QuotaWatch.Toml
