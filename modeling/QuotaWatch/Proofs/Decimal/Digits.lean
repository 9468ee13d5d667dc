/-
# Digits

The digits of a number stand for that number, and digits are those of their number unless
there is a zero in front of others (`ofNat_value_iff`). Zeros in front up to a width change
nothing (`value_padded`). A number is read of digits alone, and of all of them
(`readNat?_eq_some`).

Key theorems: `digitChar_of_isDigit`, `ofNat_value_iff`, `value_padded`, `readNat?_eq_some`,
`splitSign_cases`.
-/
import Mathlib.Tactic.IntervalCases
import Mathlib.Tactic.Ring
import QuotaWatch.Decimal.Reader

namespace QuotaWatch.Decimal

/-! ### Digits of a number -/

theorem isDigit_ofNat (n : ℕ) : ∀ c ∈ ofNat n, c.isDigit = true :=
  fun _ hc => Nat.isDigit_of_mem_toDigits (by decide) (by decide) hc

theorem digitChar_of_isDigit {c : Char} (h : c.isDigit = true) :
    Nat.digitChar (c.toNat - '0'.toNat) = c ∧ c.toNat - '0'.toNat < 10 ∧
      (c ≠ '0' → 0 < c.toNat - '0'.toNat) := by
  have hrange : 48 ≤ c.toNat ∧ c.toNat ≤ 57 := by
    simp only [Char.isDigit, Bool.and_eq_true, decide_eq_true_eq] at h
    exact h
  have hzero : '0'.toNat = 48 := rfl
  rw [hzero]
  refine ⟨?_, by omega, fun hc => ?_⟩
  · apply Char.toNat_inj.mp
    rw [Nat.toNat_digitChar_of_lt_ten (by omega)]
    omega
  · have : c.toNat ≠ 48 := fun he => hc (Char.toNat_inj.mp he)
    omega

theorem ofDigitChars_lt : ∀ (ds : List Char) (n : ℕ), (∀ c ∈ ds, c.isDigit = true) →
    Nat.ofDigitChars 10 ds n < (n + 1) * 10 ^ ds.length
  | [], n, _ => by simp
  | c :: ds, n, h => by
    obtain ⟨-, hlt, -⟩ := digitChar_of_isDigit (h c List.mem_cons_self)
    have hrest := ofDigitChars_lt ds (10 * n + (c.toNat - '0'.toNat))
      fun d hd => h d (List.mem_cons_of_mem c hd)
    rw [Nat.ofDigitChars_cons, List.length_cons, Nat.pow_succ']
    calc Nat.ofDigitChars 10 ds (10 * n + (c.toNat - '0'.toNat))
        < (10 * n + (c.toNat - '0'.toNat) + 1) * 10 ^ ds.length := hrest
      _ ≤ ((n + 1) * 10) * 10 ^ ds.length := Nat.mul_le_mul_right _ (by omega)
      _ = (n + 1) * (10 * 10 ^ ds.length) := by ring

/-- Digits behind those of a number that is not zero are those of the number they lead to. -/
theorem ofNat_append : ∀ (ds : List Char) (n : ℕ), (∀ c ∈ ds, c.isDigit = true) → 0 < n →
    ofNat n ++ ds = ofNat (Nat.ofDigitChars 10 ds n)
  | [], n, _, _ => by simp
  | c :: ds, n, hds, hn => by
    obtain ⟨hchar, hlt, -⟩ := digitChar_of_isDigit (hds c List.mem_cons_self)
    have hstep : ofNat n ++ [c] = ofNat (10 * n + (c.toNat - '0'.toNat)) := by
      have happend := Nat.toDigits_append_toDigits (b := 10) (by decide) hn hlt
      rw [Nat.toDigits_of_lt_base hlt, hchar] at happend
      exact happend
    have hrest := ofNat_append ds (10 * n + (c.toNat - '0'.toNat))
      (fun d hd => hds d (List.mem_cons_of_mem c hd)) (by omega)
    rw [Nat.ofDigitChars_cons, ← hrest, ← hstep, List.append_assoc, List.singleton_append]

theorem head?_ofNat {n : ℕ} (h : 0 < n) : (ofNat n).head? ≠ some '0' := by
  induction n using Nat.strong_induction_on with
  | _ n ih =>
    unfold ofNat
    by_cases hlt : n < 10
    · rw [Nat.toDigits_of_lt_base hlt]
      interval_cases n <;> decide
    · have hrest := ih (n / 10) (by omega) (by omega)
      obtain ⟨c, cs, hcons⟩ := List.exists_cons_of_ne_nil
        (Nat.toDigits_ne_nil (n := n / 10) (b := 10))
      rw [ofNat, hcons] at hrest
      rw [Nat.toDigits_of_base_le (by decide) (by omega), hcons]
      exact hrest

/-- **Digits are those of their number** unless there is a zero in front of others. -/
theorem ofNat_value_iff {ds : List Char} (hne : ds ≠ []) (hds : ∀ c ∈ ds, c.isDigit = true) :
    ofNat (value ds) = ds ↔ ds = ['0'] ∨ ds.head? ≠ some '0' := by
  constructor
  · intro h
    by_cases hzero : value ds = 0
    · rw [hzero] at h
      exact Or.inl h.symm
    · rw [← h]
      exact Or.inr (head?_ofNat (Nat.pos_of_ne_zero hzero))
  · rintro (rfl | hhead)
    · decide
    · obtain ⟨c, rest, rfl⟩ := List.exists_cons_of_ne_nil hne
      obtain ⟨hchar, hlt, hpos⟩ := digitChar_of_isDigit (hds c List.mem_cons_self)
      have hc : c ≠ '0' := fun he => hhead (congrArg some he)
      have hrest := ofNat_append rest _ (fun d hd => hds d (List.mem_cons_of_mem c hd)) (hpos hc)
      have hfirst : ofNat (c.toNat - '0'.toNat) = [c] := by
        rw [ofNat, Nat.toDigits_of_lt_base hlt, hchar]
      rw [hfirst, List.singleton_append] at hrest
      rw [value, Nat.ofDigitChars_cons, Nat.mul_zero, Nat.zero_add]
      exact hrest.symm

/-! ### Digits up to a width -/

section Padded

variable {width n : ℕ}

theorem length_padded (hwidth : 0 < width) (h : n < 10 ^ width) :
    (padded width n).length = width := by
  have hle : (ofNat n).length ≤ width := (Nat.length_toDigits_le_iff (by decide) hwidth).mpr h
  rw [padded, List.length_append, List.length_replicate]
  omega

theorem isDigit_padded : ∀ c ∈ padded width n, c.isDigit = true := by
  intro c hc
  rcases List.mem_append.mp hc with hzero | hdigit
  · rw [(List.mem_replicate.mp hzero).2]
    rfl
  · exact isDigit_ofNat n c hdigit

theorem value_padded : value (padded width n) = n := by
  rw [value, padded, Nat.ofDigitChars_append, Nat.ofDigitChars_replicate_zero, Nat.mul_zero]
  exact value_ofNat n

theorem padded_ne_nil : padded width n ≠ [] :=
  List.append_ne_nil_of_right_ne_nil _ Nat.toDigits_ne_nil

end Padded

/-! ### Numbers that are read -/

theorem readNat?_eq_some {cs : List Char} {n : ℕ} (h : readNat? cs = some n) :
    cs ≠ [] ∧ (∀ c ∈ cs, c.isDigit = true) ∧ n = value cs := by
  unfold readNat? at h
  split at h
  · cases h
  · rename_i hdigits
    cases h
    simp only [Bool.or_eq_true, List.isEmpty_iff, Bool.not_eq_true', not_or,
      Bool.not_eq_false, List.all_eq_true] at hdigits
    exact ⟨hdigits.1, hdigits.2, rfl⟩

/-- What a sign may stand in front of. -/
theorem splitSign_cases (cs : List Char) :
    (cs = '-' :: (splitSign cs).2 ∧ (splitSign cs).1 = true) ∨
    (cs = '+' :: (splitSign cs).2 ∧ (splitSign cs).1 = false) ∨
    (cs.head? ≠ some '-' ∧ cs.head? ≠ some '+' ∧ splitSign cs = (false, cs)) := by
  unfold splitSign
  split
  · exact Or.inl ⟨rfl, rfl⟩
  · exact Or.inr (Or.inl ⟨rfl, rfl⟩)
  · rename_i hminus hplus
    refine Or.inr (Or.inr ⟨fun h => ?_, fun h => ?_, rfl⟩)
    · obtain ⟨rest, rfl⟩ := List.head?_eq_some_iff.mp h
      exact hminus rest rfl
    · obtain ⟨rest, rfl⟩ := List.head?_eq_some_iff.mp h
      exact hplus rest rfl

end QuotaWatch.Decimal
