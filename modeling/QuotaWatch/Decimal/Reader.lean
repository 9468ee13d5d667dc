/-
# Reading decimals

The float nearest to a decimal is found with exact integers: the value is cut
to the 53 bits that a float has at its size, and rounded to the nearest, a half
to the even neighbour.

Key definitions: `nearestFloat`, `readFloat?`, `readNat?`.
Key theorems: `halfEven_near`.
-/
import QuotaWatch.Decimal.Layout

namespace QuotaWatch.Decimal

/-- A quotient rounded to the nearest whole number, a half to the even one. -/
def halfEven (n d : Nat) : Nat :=
  let q := n / d
  let twice := 2 * (n % d)
  if twice < d then q else if d < twice then q + 1 else q + q % 2

/-- The bits of the largest float's successor, infinity. -/
def infinityBits : Nat := 0x7FF * hiddenBit

/-- The bits of the float nearest to a quotient that is not zero. The scale is
that of the lowest bit kept. -/
def quotientBits (n d : Nat) : Nat :=
  let guess : Int := (Nat.log2 n : Int) - Nat.log2 d
  let isBelow := n * Nat.pow 2 (-guess).toNat < d * Nat.pow 2 guess.toNat
  let scale := max (guess - 52 - if isBelow then 1 else 0) (-1074)
  let kept := halfEven (n * Nat.pow 2 (-scale).toNat) (d * Nat.pow 2 scale.toNat)
  min infinityBits ((scale + 1074).toNat * hiddenBit + kept)

/-- The bits of the float nearest to `digits * 10 ^ exponent`. -/
def decimalBits (digits : Nat) (exponent : Int) : Nat :=
  let size := exponent + (ofNat digits).length
  if digits == 0 || size < -330 then 0
  else if size > 310 then infinityBits
  else quotientBits (digits * Nat.pow 10 exponent.toNat) (Nat.pow 10 (-exponent).toNat)

/-- The float nearest to `digits * 10 ^ exponent`, with a sign. -/
def nearestFloat (isBelow : Bool) (digits : Nat) (exponent : Int) : Float :=
  let x := Float.ofBits (UInt64.ofNat (decimalBits digits exponent))
  if isBelow then -x else x

/-- A row of digits and nothing else, at least one. -/
def readNat? (cs : List Char) : Option Nat :=
  if cs.isEmpty || !cs.all Char.isDigit then none else some (value cs)

/-- A sign at the start of a text, and the rest. -/
def splitSign : List Char → Bool × List Char
  | '-' :: rest => (true, rest)
  | '+' :: rest => (false, rest)
  | rest => (false, rest)

/-- What stands behind the digits of a decimal: nothing, or an exponent. -/
def readExponent? : List Char → Option Int
  | [] => some 0
  | c :: rest =>
    if c == 'e' || c == 'E' then
      let (isBelow, digits) := splitSign rest
      (readNat? digits).map fun n => if isBelow then -(n : Int) else n
    else none

/-- A decimal without its sign, with digits on at least one side of the point. -/
def readMagnitude? (isBelow : Bool) (cs : List Char) : Option Float :=
  let whole := cs.takeWhile Char.isDigit
  let rest := cs.dropWhile Char.isDigit
  let (places, rest) := match rest with
    | '.' :: rest => (rest.takeWhile Char.isDigit, rest.dropWhile Char.isDigit)
    | rest => ([], rest)
  if whole.isEmpty && places.isEmpty then none
  else (readExponent? rest).map fun exponent =>
    nearestFloat isBelow (value (whole ++ places)) (exponent - places.length)

/-- The float that a text stands for: a decimal, an infinity or not a number,
words in letters of any case. -/
def readFloat? (s : String) : Option Float :=
  let (isBelow, rest) := splitSign s.toList
  let word := String.ofList (rest.map Char.toLower)
  if word == "nan" then some (0 / 0)
  else if word == "inf" || word == "infinity" then some (if isBelow then -1 / 0 else 1 / 0)
  else readMagnitude? isBelow rest

/-- The rounded quotient is within half a unit of the exact one. -/
theorem halfEven_near {n d : Nat} (h : 0 < d) :
    2 * (halfEven n d * d) ≤ 2 * n + d ∧ 2 * n ≤ 2 * (halfEven n d * d) + d := by
  have e := Nat.div_add_mod n d
  have l := Nat.mod_lt n h
  have hm : n / d * d = d * (n / d) := Nat.mul_comm _ _
  unfold halfEven
  simp only
  split
  · omega
  · split
    · rw [Nat.add_one_mul (n / d) d]; omega
    · rcases Nat.mod_two_eq_zero_or_one (n / d) with h2 | h2 <;> rw [h2]
      · simp only [Nat.add_zero]; omega
      · rw [Nat.add_one_mul (n / d) d]; omega

end QuotaWatch.Decimal
