/-
# Writing a decimal

A layout says where positional notation ends and whether a whole number keeps
its point. Each output format of the library has one layout value; the digits
come from the shortest decimal.

Key definitions: `Layout`, `Layout.write`, `ofNat`, `ofInt`.
Key theorems: `value_ofNat`.
-/
import QuotaWatch.Decimal.Shortest

namespace QuotaWatch.Decimal

/-- The digits of a natural number, most significant first. -/
def ofNat (n : Nat) : List Char := Nat.toDigits 10 n

/-- The digits of an integer behind a minus sign where it is negative. -/
def ofInt : Int → List Char
  | .ofNat n => ofNat n
  | .negSucc n => '-' :: ofNat (n + 1)

/-- The number that a row of digits stands for. -/
def value (digits : List Char) : Nat := Nat.ofDigitChars 10 digits 0

/-- Digits with leading zeros up to a width. -/
def padded (width n : Nat) : List Char :=
  List.replicate (width - (ofNat n).length) '0' ++ ofNat n

/-- How an output format writes numbers with a fraction. -/
structure Layout where
  tie : Tie
  /-- Least exponent of the leading digit that is written positionally, if any is not. -/
  plainFrom : Option Int
  /-- Least exponent above those that are written positionally, if there is one. -/
  plainBelow : Option Int
  /-- Whether a whole number is written with a zero behind the point. -/
  pointZero : Bool

/-- Whether a number with this exponent of its leading digit is written without an exponent. -/
def Layout.isPlain (l : Layout) (exponent : Int) : Bool :=
  l.plainFrom.all (· ≤ exponent) && l.plainBelow.all (exponent < ·)

/-- Set the point `before` places behind the first digit, with zeros where digits are missing. -/
def Layout.placePoint (l : Layout) (digits : List Char) (before : Int) : List Char :=
  if before ≤ 0 then '0' :: '.' :: List.replicate (-before).toNat '0' ++ digits
  else if digits.length ≤ before.toNat then
    digits ++ List.replicate (before.toNat - digits.length) '0' ++
      (if l.pointZero then ['.', '0'] else [])
  else digits.take before.toNat ++ '.' :: digits.drop before.toNat

/-- One digit, the others behind a point, and the exponent with its sign. -/
def scientific (digits : List Char) (exponent : Int) : List Char :=
  digits.take 1 ++ (if digits.length ≤ 1 then [] else '.' :: digits.drop 1) ++
    'e' :: (if exponent < 0 then '-' else '+') :: ofNat exponent.natAbs

/-- A decimal in the layout. -/
def Layout.place (l : Layout) (d : Dec) : List Char :=
  let digits := ofNat d.digits
  let exponent := d.exponent + digits.length - 1
  if l.isPlain exponent then l.placePoint digits (exponent + 1) else scientific digits exponent

/-- A float in the layout. -/
def Layout.write (l : Layout) (x : Float) : String :=
  if x.isNaN then "NaN"
  else
    let magnitude :=
      if x.isInf then ['i', 'n', 'f']
      else if (Binary.ofFloat x).significand == 0 then l.place ⟨0, 0⟩
      else l.place ((Binary.ofFloat x).shortest l.tie)
    String.ofList (if isNegative x then '-' :: magnitude else magnitude)

/-- The digits written for a number stand for that number. -/
theorem value_ofNat (n : Nat) : value (ofNat n) = n :=
  Nat.ofDigitChars_toDigits (by decide) (by decide)

end QuotaWatch.Decimal
