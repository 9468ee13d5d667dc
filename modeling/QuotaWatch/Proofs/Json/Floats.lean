/-
# Floats in documents

A finite float is written with digits, a point and an exponent, and nothing that could be
taken for a blank or for the start of another value (`isNumeric_place`). So if its text is
decoded as the float, the text is one number that is read to its end
(`read_write_of_decodeText`), and the float can stand anywhere in a document
(`documents_ofFloat`). What is not finite is written as `null`, which no decoder of floats
takes: there it is a document of none.

Key definitions: `IsNumeric`.
Key theorems: `Number.suffix_of_read`, `read_write_of_decodeText`, `documents_ofFloat`.
-/
import QuotaWatch.Proofs.Json.Documents

namespace QuotaWatch

/-! ### The text of a float -/

namespace Decimal

/-- A character of a number. -/
def IsNumeric (c : Char) : Prop := c.isDigit = true ∨ c ∈ ['.', 'e', '-', '+']

theorem isNumeric_ofNat (n : ℕ) : ∀ c ∈ ofNat n, IsNumeric c :=
  fun c hc => Or.inl (isDigit_ofNat n c hc)

theorem isNumeric_replicate (k : ℕ) : ∀ c ∈ List.replicate k '0', IsNumeric c :=
  fun _ hc => (List.mem_replicate.mp hc).2 ▸ Or.inl rfl

theorem isNumeric_cons {c : Char} {cs : List Char} (hc : c ∈ ['.', 'e', '-', '+'])
    (hcs : ∀ d ∈ cs, IsNumeric d) : ∀ d ∈ c :: cs, IsNumeric d :=
  List.forall_mem_cons.mpr ⟨Or.inr hc, hcs⟩

theorem isNumeric_placePoint (l : Layout) {digits : List Char} (before : Int)
    (hdigits : ∀ c ∈ digits, IsNumeric c) : ∀ c ∈ l.placePoint digits before, IsNumeric c := by
  unfold Layout.placePoint
  split
  · exact List.forall_mem_append.mpr
      ⟨List.forall_mem_cons.mpr ⟨Or.inl rfl, isNumeric_cons (by decide) (isNumeric_replicate _)⟩,
        hdigits⟩
  · split
    · refine List.forall_mem_append.mpr
        ⟨List.forall_mem_append.mpr ⟨hdigits, isNumeric_replicate _⟩, ?_⟩
      split
      · exact isNumeric_cons (by decide) (isNumeric_replicate 1)
      · exact fun c hc => by cases hc
    · exact List.forall_mem_append.mpr ⟨fun c hc => hdigits c (List.mem_of_mem_take hc),
        isNumeric_cons (by decide) fun c hc => hdigits c (List.mem_of_mem_drop hc)⟩

theorem isNumeric_scientific {digits : List Char} (exponent : Int)
    (hdigits : ∀ c ∈ digits, IsNumeric c) : ∀ c ∈ scientific digits exponent, IsNumeric c := by
  have hsign : (if exponent < 0 then '-' else '+') ∈ ['.', 'e', '-', '+'] := by
    split <;> decide
  refine List.forall_mem_append.mpr ⟨List.forall_mem_append.mpr
    ⟨fun c hc => hdigits c (List.mem_of_mem_take hc), ?_⟩,
    isNumeric_cons (by decide) (isNumeric_cons hsign (isNumeric_ofNat _))⟩
  split
  · exact fun c hc => by cases hc
  · exact isNumeric_cons (by decide) fun c hc => hdigits c (List.mem_of_mem_drop hc)

theorem isNumeric_place (l : Layout) (d : Dec) : ∀ c ∈ l.place d, IsNumeric c := by
  unfold Layout.place
  simp only
  split
  · exact isNumeric_placePoint l _ (isNumeric_ofNat _)
  · exact isNumeric_scientific _ (isNumeric_ofNat _)

/-- The digits of a number come first, unless a zero stands in front of its point. -/
theorem head_place (l : Layout) (d : Dec) : ∃ c cs, l.place d = c :: cs ∧ c.isDigit = true := by
  obtain ⟨c, cs, hcons⟩ := List.exists_cons_of_ne_nil (Nat.toDigits_ne_nil (n := d.digits) (b := 10))
  have hdigits : ofNat d.digits = c :: cs := hcons
  have hdigit : c.isDigit = true := isDigit_ofNat d.digits c (hdigits ▸ List.mem_cons_self)
  unfold Layout.place Layout.placePoint scientific
  simp only [hdigits]
  split
  · split
    · exact ⟨'0', _, rfl, rfl⟩
    · rename_i hbefore
      split
      · exact ⟨c, _, rfl, hdigit⟩
      · obtain ⟨k, hk⟩ : ∃ k, (d.exponent + (c :: cs).length - 1 + 1).toNat = k + 1 :=
          ⟨(d.exponent + (c :: cs).length - 1 + 1).toNat - 1, by omega⟩
        rw [hk]
        exact ⟨c, _, rfl, hdigit⟩
  · exact ⟨c, _, rfl, hdigit⟩

/-- What is written for a float: a number, perhaps behind a minus sign, or a word. -/
theorem write_eq (l : Layout) (x : Float) :
    (∃ d, (l.write x).toList = l.place d ∨ (l.write x).toList = '-' :: l.place d) ∨
      l.write x ∈ ["NaN", "inf", "-inf"] := by
  unfold Layout.write
  by_cases hnan : x.isNaN = true
  · rw [if_pos hnan]
    exact Or.inr (by decide)
  rw [if_neg hnan]
  by_cases hinf : x.isInf = true
  · simp only [hinf, if_true]
    right
    split <;> decide
  left
  by_cases hzero : ((Binary.ofFloat x).significand == 0) = true
  · simp only [hinf, hzero, if_true]
    exact ⟨⟨0, 0⟩, by split <;> simp⟩
  · simp only [hinf, hzero]
    exact ⟨(Binary.ofFloat x).shortest l.tie, by split <;> simp⟩

end Decimal

namespace Json

open Decimal

/-! ### What is left of a text -/

theorem suffix_of_digitRun (cs : List Char) : (digitRun cs).2 <:+ cs := List.dropWhile_suffix _

theorem suffix_of_readExponent {cs rest : List Char} {exponent : Int}
    (h : readExponent cs = some (exponent, rest)) : rest <:+ cs := by
  have hrun : ∀ {isBelow : Bool} {cs : List Char},
      (if (digitRun cs).1.isEmpty then none
        else some (if isBelow then -(value (digitRun cs).1 : Int) else value (digitRun cs).1,
          (digitRun cs).2)) = some (exponent, rest) → rest <:+ cs := by
    intro isBelow cs h
    split at h
    · cases h
    · cases h
      exact suffix_of_digitRun cs
  unfold readExponent at h
  cases cs with
  | nil => exact hrun h
  | cons c cs =>
    by_cases hminus : c = '-'
    · subst hminus
      exact (hrun h).trans (List.suffix_cons _ _)
    by_cases hplus : c = '+'
    · subst hplus
      exact (hrun h).trans (List.suffix_cons _ _)
    simp [hminus, hplus] at h
    exact h.2.2 ▸ suffix_of_digitRun _

theorem suffix_of_readScale {isBelow : Bool} {significand : ℕ} {start : Int} {cs rest : List Char}
    {n : Number} (h : readScale isBelow significand start cs = some (n, rest)) : rest <:+ cs := by
  unfold readScale at h
  split at h
  · obtain ⟨⟨exponent, rest'⟩, hread, heq⟩ := Option.map_eq_some_iff.mp h
    cases heq
    exact (suffix_of_readExponent hread).trans (List.suffix_cons _ _)
  · obtain ⟨⟨exponent, rest'⟩, hread, heq⟩ := Option.map_eq_some_iff.mp h
    cases heq
    exact (suffix_of_readExponent hread).trans (List.suffix_cons _ _)
  · cases h
    exact List.suffix_rfl

theorem suffix_of_readFraction {isBelow : Bool} {whole cs rest : List Char} {n : Number}
    (h : readFraction isBelow whole cs = some (n, rest)) : rest <:+ cs := by
  unfold readFraction at h
  rcases gather 0 whole with ⟨significand, left⟩
  simp only at h
  split at h
  · split at h
    · cases h
    · exact ((suffix_of_readScale h).trans (suffix_of_digitRun _)).trans (List.suffix_cons _ _)
  · exact suffix_of_readScale h
  · exact suffix_of_readScale h
  · split at h <;> cases h <;> exact List.suffix_rfl

/-- What is left behind a number is the end of the text. -/
theorem Number.suffix_of_read {cs rest : List Char} {n : Number}
    (h : Number.read cs = some (n, rest)) : rest <:+ cs := by
  have hunsigned : ∀ {isBelow : Bool} {cs : List Char},
      readUnsigned isBelow cs = some (n, rest) → rest <:+ cs := by
    intro isBelow cs h
    unfold readUnsigned at h
    simp only at h
    split at h
    · cases h
    · exact (suffix_of_readFraction h).trans (suffix_of_digitRun cs)
  unfold Number.read at h
  split at h
  · exact (hunsigned h).trans (List.suffix_cons _ _)
  · exact hunsigned h

/-! ### Floats -/

theorem isGap_of_isNumeric {c : Char} (h : IsNumeric c) : isGap c = false := by
  rcases h with hdigit | hmark
  · have hne := ne_of_numberStart (Or.inr hdigit)
    simp [isGap, hne]
  · simp only [List.mem_cons, List.not_mem_nil, or_false] at hmark
    rcases hmark with rfl | rfl | rfl | rfl <;> rfl

/-- A text of a number is decoded as the number that is read from it. -/
theorem decodeText_number {α : Type} (d : Decoder α) {c : Char} {cs : List Char}
    (hc : c = '-' ∨ c.isDigit = true) (hnumeric : ∀ e ∈ c :: cs, IsNumeric e) {a : α}
    (h : decodeText d (String.ofList (c :: cs)) = .ok a) :
    ∃ n, Number.read (c :: cs) = some (n, []) ∧ d {} (.number n) = .ok a := by
  rw [decodeText, String.toList_ofList, read, readValue_numberStart cs _ hc] at h
  cases hread : Number.read (c :: cs) with
  | none =>
    simp only [hread] at h
    cases hd : d {} .broken <;> simp [hd, bind, Except.bind] at h
  | some r =>
    obtain ⟨n, rest⟩ := r
    simp only [hread] at h
    cases hd : d {} (.number n) with
    | error r => simp [hd, bind, Except.bind] at h
    | ok b =>
      simp only [hd, bind, Except.bind] at h
      split at h
      · rename_i hgaps
        cases h
        cases rest with
        | nil => exact ⟨n, rfl, hd⟩
        | cons e rest =>
          have hmem : e ∈ c :: cs := (Number.suffix_of_read hread).mem List.mem_cons_self
          have hgap : isGap e = true := List.all_eq_true.mp hgaps e List.mem_cons_self
          rw [isGap_of_isNumeric (hnumeric e hmem)] at hgap
          cases hgap
      · cases h

/-- The text of a float that is decoded as the float is one number. -/
theorem read_write_of_decodeText {x : Float} (hfinite : x.isFinite = true)
    (h : decodeText float (ofFloat x).toText = .ok x) :
    ∃ n, Number.read (Number.real x).write = some (n, []) ∧ float {} (.number n) = .ok x := by
  have hwrite : (Number.real x).write = (documentLayout.write x).toList := if_pos hfinite
  have htext : (ofFloat x).toText = String.ofList (Number.real x).write := by
    rw [toText, ofFloat, write]
  rw [htext] at h
  rw [hwrite] at h ⊢
  rcases write_eq documentLayout x with ⟨d, hd | hd⟩ | hword
  · obtain ⟨c, cs, hcons, hdigit⟩ := head_place documentLayout d
    have hnumeric := isNumeric_place documentLayout d
    rw [hd] at h ⊢
    rw [hcons] at h hnumeric ⊢
    exact decodeText_number float (Or.inr hdigit) hnumeric h
  · have hnumeric := isNumeric_cons (c := '-') (by decide) (isNumeric_place documentLayout d)
    rw [hd] at h ⊢
    exact decodeText_number float (Or.inl rfl) hnumeric h
  · simp only [List.mem_cons, List.not_mem_nil, or_false] at hword
    rcases hword with hword | hword | hword <;> rw [hword] at h <;> cases h

/-- **A float is a document of itself** if it is finite, and else a document of none. -/
theorem documents_ofFloat {height : ℕ} {x : Float}
    (h : x.isFinite = true → decodeText float (ofFloat x).toText = .ok x) :
    Documents float height (ofFloat x) (if x.isFinite then some x else none) := by
  cases hfinite : x.isFinite with
  | false =>
    have hwrite : (Number.real x).write = nullWord := by rw [Number.write, hfinite]; rfl
    have hread : (ofFloat x).asRead = .null := by
      rw [ofFloat, asRead, Number.asRead, hwrite]
      rfl
    exact ⟨.number (Or.inl hwrite), fun p _ => by rw [hread]; rfl⟩
  | true =>
    obtain ⟨n, hn, hx⟩ := read_write_of_decodeText hfinite (h hfinite)
    have hread : (ofFloat x).asRead = .number n := by
      rw [ofFloat, asRead, Number.asRead, hn]
    refine ⟨.number (Or.inr ⟨n, hn, fun he => by rw [he] at hx; cases hx⟩), fun p _ => ?_⟩
    have hplace : float p (.number n) = float {} (.number n) := by cases n <;> rfl
    rw [hread, hplace, hx]
    rfl

end Json

end QuotaWatch
