/-
# The shortest decimal of a binary64 value

A binary64 value stands for an interval of reals, those that round to it. Its
shortest decimal is the point of that interval with the fewest digits, the one
nearest to the value where there are several. The search tries one digit, two
digits and so on, with exact integer comparisons throughout.

Key definitions: `Dec`, `Binary.identifiedBy`, `Binary.shortest`.
Key theorems: `compareScaled_eq_lt`.
-/
import QuotaWatch.Decimal.Binary

namespace QuotaWatch.Decimal

/-- The decimal `digits * 10 ^ exponent`. -/
structure Dec where
  digits : Nat
  exponent : Int
deriving Repr, DecidableEq

/-- Which of two equally near decimals is taken. -/
inductive Tie where
  | toEven
  | upward
deriving Repr, DecidableEq

/-- Compare `a * 10 ^ i` with `n * 2 ^ j`. -/
def compareScaled (a : Nat) (i : Int) (n : Nat) (j : Int) : Ordering :=
  compare (a * Nat.pow 10 i.toNat * Nat.pow 2 (-j).toNat)
    (n * Nat.pow 2 j.toNat * Nat.pow 10 (-i).toNat)

/-- Whether the decimal lies among the reals that round to the value: between
the two midpoints to its neighbours, the midpoints included exactly when the
significand is even. -/
def Binary.identifiedBy (b : Binary) (d : Dec) : Bool :=
  let low := if b.narrowBelow then 4 * b.significand - 1 else 4 * b.significand - 2
  let high := 4 * b.significand + 2
  let closed := b.significand % 2 == 0
  let fromLow := compareScaled d.digits d.exponent low (b.scale - 2)
  let fromHigh := compareScaled d.digits d.exponent high (b.scale - 2)
  (fromLow == .gt || (closed && fromLow == .eq)) && (fromHigh == .lt || (closed && fromHigh == .eq))

/-- The least power of ten above a value that is not zero. The binary logarithm
gives it up to two steps. -/
def Binary.magnitude (b : Binary) : Int :=
  let guess := (((Nat.log2 b.significand : Nat) : Int) + b.scale) * 30103 / 100000 - 1
  let above (k : Int) : Bool := compareScaled 1 k b.significand b.scale == .gt
  if above guess then guess
  else if above (guess + 1) then guess + 1
  else if above (guess + 2) then guess + 2
  else guess + 3

/-- The whole number of steps `10 ^ step` in the value. -/
def Binary.stepsBelow (b : Binary) (step : Int) : Nat :=
  b.significand * Nat.pow 2 b.scale.toNat * Nat.pow 10 (-step).toNat /
    (Nat.pow 10 step.toNat * Nat.pow 2 (-b.scale).toNat)

/-- The decimal with `count` digits that identifies the value, if there is one:
of the two grid points beside the value the nearer one. -/
def Binary.withDigits (b : Binary) (tie : Tie) (count : Nat) : Option Dec :=
  let step := b.magnitude - count
  let below : Dec := ⟨b.stepsBelow step, step⟩
  let above : Dec := ⟨b.stepsBelow step + 1, step⟩
  match b.identifiedBy below, b.identifiedBy above with
  | true, false => some below
  | false, true => some above
  | false, false => none
  | true, true =>
    match compareScaled (2 * below.digits + 1) step (2 * b.significand) b.scale, tie with
    | .gt, _ => some below
    | .lt, _ => some above
    | .eq, .upward => some above
    | .eq, .toEven => if below.digits % 2 == 0 then some below else some above

/-- Move trailing zeros of the digits into the exponent. -/
def Dec.trimmed : Nat → Dec → Dec
  | 0, d => d
  | fuel + 1, d =>
    if d.digits != 0 && d.digits % 10 == 0 then trimmed fuel ⟨d.digits / 10, d.exponent + 1⟩ else d

/-- The value itself, written out in full. -/
def Binary.exact (b : Binary) : Dec :=
  if 0 ≤ b.scale then ⟨b.significand * Nat.pow 2 b.scale.toNat, 0⟩
  else ⟨b.significand * Nat.pow 5 (-b.scale).toNat, b.scale⟩

/-- The fewest digits that identify the value; seventeen always suffice, and
the exact value stands behind them. -/
def Binary.shortest (b : Binary) (tie : Tie) : Dec :=
  (((List.range 17).findSome? fun k => b.withDigits tie (k + 1)).getD b.exact).trimmed 20

/-- The comparison is the one of the two naturals that arise when both sides
are multiplied by the powers that occur with a negative exponent. -/
theorem compareScaled_eq_lt {a n : Nat} {i j : Int} :
    compareScaled a i n j = .lt ↔
      a * Nat.pow 10 i.toNat * Nat.pow 2 (-j).toNat <
        n * Nat.pow 2 j.toNat * Nat.pow 10 (-i).toNat := by
  simp only [compareScaled, Nat.compare_eq_lt]

end QuotaWatch.Decimal
