/-
# Digits in base sixteen

Key definitions: `hexDigit?`, `hexNumber?`.
Key theorems: `hexDigit?_lt`.
-/

namespace QuotaWatch.Text

/-- The value of a digit in base sixteen. -/
def hexDigit? (c : Char) : Option Nat :=
  if c.isDigit then some (c.toNat - 48)
  else if 'a' ≤ c ∧ c ≤ 'f' then some (c.toNat - 87)
  else if 'A' ≤ c ∧ c ≤ 'F' then some (c.toNat - 55)
  else none

/-- The number that a row of digits puts behind the digits of `start`. -/
def hexNumber? (start : Nat) : List Char → Option Nat
  | [] => some start
  | c :: cs => (hexDigit? c).bind fun d => hexNumber? (start * 16 + d) cs

/-- A digit is below sixteen. -/
theorem hexDigit?_lt {c : Char} {d : Nat} (h : hexDigit? c = some d) : d < 16 := by
  unfold hexDigit? at h
  have key : ∀ {a b : Char}, a ≤ b → a.toNat ≤ b.toNat := fun h => UInt32.le_iff_toNat_le.mp h
  split at h
  · rename_i hd
    simp only [Char.isDigit, Bool.and_eq_true, decide_eq_true_eq] at hd
    have h9 := key hd.2
    have : '9'.toNat = 57 := by decide
    injection h with h
    omega
  · split at h
    · rename_i hd
      have hf := key hd.2
      have : 'f'.toNat = 102 := by decide
      injection h with h
      omega
    · split at h
      · rename_i hd
        have hf := key hd.2
        have : 'F'.toNat = 70 := by decide
        injection h with h
        omega
      · cases h

end QuotaWatch.Text
