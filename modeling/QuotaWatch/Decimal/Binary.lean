/-
# Binary64 values as exact numbers

A finite binary64 value is `significand * 2 ^ scale`. Everything the library
decides about such a value (its nearest whole number, its shortest decimal) is
decided on these two integers, so no step depends on a machine's rounding.

Key definitions: `Binary`, `Binary.ofFloat`, `Binary.nearestNat`, `nearestWord`.
Key theorems: `Binary.nearestNat_near`.
-/

namespace QuotaWatch.Decimal

/-- A finite non-negative binary64 value, `significand * 2 ^ scale`. -/
structure Binary where
  significand : Nat
  scale : Int
  /-- The gap to the value below is half the gap to the value above. -/
  narrowBelow : Bool
deriving Repr, DecidableEq

/-- Whether the sign bit is set; true of minus zero too. -/
def isNegative (x : Float) : Bool := x.toBits >>> 63 == 1

/-- The leading bit of a significand, which is not stored. -/
def hiddenBit : Nat := 0x10000000000000

/-- The magnitude of a finite value, read off its exponent and fraction bits. -/
def Binary.ofFloat (x : Float) : Binary :=
  let exponent := ((x.toBits >>> 52) &&& 0x7FF).toNat
  let fraction := (x.toBits &&& 0xFFFFFFFFFFFFF).toNat
  if exponent == 0 then ⟨fraction, -1074, false⟩
  else ⟨hiddenBit + fraction, (exponent : Int) - 1075, fraction == 0 && exponent > 1⟩

/-- The nearest natural number; a half goes up. -/
def Binary.nearestNat (b : Binary) : Nat :=
  if 0 ≤ b.scale then b.significand * Nat.pow 2 b.scale.toNat
  else (2 * b.significand + Nat.pow 2 (-b.scale).toNat) / (2 * Nat.pow 2 (-b.scale).toNat)

/-- The largest 64-bit word. -/
def maxWord : Nat := 0xFFFFFFFFFFFFFFFF

/-- The whole number nearest to a float, a half going away from zero, held
within the 64-bit words: what is negative or not a number gives zero, what is
too large gives the largest word. -/
def nearestWord (x : Float) : UInt64 :=
  if x.isNaN || isNegative x then 0
  else if x.isInf then UInt64.ofNat maxWord
  else UInt64.ofNat (min maxWord (Binary.ofFloat x).nearestNat)

/-- Below the point the rounded value is within half a unit of the exact one. -/
theorem Binary.nearestNat_near (b : Binary) (h : b.scale < 0) :
    let unit := Nat.pow 2 (-b.scale).toNat
    2 * (b.nearestNat * unit) ≤ 2 * b.significand + unit ∧
      2 * b.significand < 2 * (b.nearestNat * unit) + unit := by
  have hneg : ¬ 0 ≤ b.scale := by omega
  have hpos : 0 < Nat.pow 2 (-b.scale).toNat := Nat.two_pow_pos _
  simp only [nearestNat, if_neg hneg]
  generalize Nat.pow 2 (-b.scale).toNat = d at *
  have e := Nat.div_add_mod (2 * b.significand + d) (2 * d)
  have l := Nat.mod_lt (2 * b.significand + d) (show 0 < 2 * d by omega)
  generalize (2 * b.significand + d) / (2 * d) = k at *
  have hk : 2 * (k * d) = 2 * d * k := by rw [Nat.mul_comm k d, Nat.mul_assoc]
  omega

end QuotaWatch.Decimal
