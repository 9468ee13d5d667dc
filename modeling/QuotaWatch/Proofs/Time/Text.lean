/-
# Points in time as texts

A point in time is read back from its text (`ofText?_toText`). Each reader stops behind what
the writer of the same part wrote: numbers of a fixed width by their width, the year behind a
sign and the fraction by the mark that follows. A leap second has a text of its own only at
the end of a minute, where it is the sixtieth; elsewhere the text would name the next second.
So a point in time has a text if the calendar covers it and it is no leap second within a
minute (`IsCivil`), and every text names such a point (`isCivil_of_ofText?`).

Key definitions: `Timestamp.IsCivil`.
Key theorems: `digits?_padded`, `date?_write`, `clock?_writeClock`, `Timestamp.ofText?_toText`,
`Timestamp.isCivil_of_ofText?`.
-/
import QuotaWatch.Time.Printer
import QuotaWatch.Time.Reader
import QuotaWatch.Proofs.Json.Text
import QuotaWatch.Proofs.Time.Calendar
import QuotaWatch.Proofs.Window.Retention

namespace QuotaWatch.Time

open Decimal Text

/-! ### Numbers -/

theorem isBlank_of_isDigit {c : Char} (h : c.isDigit = true) : isBlank c = false := by
  have hrange : 48 ≤ c.toNat ∧ c.toNat ≤ 57 := by
    simp only [Char.isDigit, Bool.and_eq_true, decide_eq_true_eq] at h
    exact h
  simp only [isBlank, Bool.or_eq_false_iff, Bool.and_eq_false_iff, decide_eq_false_iff_not,
    beq_eq_false_iff_ne]
  omega

theorem trimLeft_cons {c : Char} (h : isBlank c = false) (cs : List Char) :
    trimLeft (c :: cs) = c :: cs := by
  rw [trimLeft, List.dropWhile_cons_of_neg (by simp [h])]

theorem trimLeft_append {ds : List Char} (hne : ds ≠ []) (hds : ∀ c ∈ ds, c.isDigit = true)
    (rest : List Char) : trimLeft (ds ++ rest) = ds ++ rest := by
  obtain ⟨c, cs, rfl⟩ := List.exists_cons_of_ne_nil hne
  exact trimLeft_cons (isBlank_of_isDigit (hds c List.mem_cons_self)) _

theorem takeWhile_take {width : ℕ} {ds rest : List Char} (hds : ∀ c ∈ ds, c.isDigit = true)
    (hle : ds.length ≤ width)
    (hrest : width = ds.length ∨ ∃ c cs, rest = c :: cs ∧ c.isDigit = false) :
    ((ds ++ rest).take width).takeWhile Char.isDigit = ds := by
  rw [List.take_append, List.take_of_length_le hle, List.takeWhile_append_of_pos hds]
  have hstop : (rest.take (width - ds.length)).takeWhile Char.isDigit = [] := by
    rcases hrest with rfl | ⟨c, cs, rfl, hc⟩
    · rw [Nat.sub_self, List.take_zero, List.takeWhile_nil]
    · cases width - ds.length with
      | zero => rfl
      | succ k => simp [hc]
  rw [hstop, List.append_nil]

/-- **Digits are read up to their width**, or up to a mark that follows them. -/
theorem digits?_append {width : ℕ} {ds rest : List Char} (hne : ds ≠ [])
    (hds : ∀ c ∈ ds, c.isDigit = true) (hle : ds.length ≤ width)
    (hrest : width = ds.length ∨ ∃ c cs, rest = c :: cs ∧ c.isDigit = false) :
    digits? width (ds ++ rest) = some (value ds, rest) := by
  have hrun := takeWhile_take hds hle hrest
  simp only [digits?, hrun]
  simp [hne]

theorem number?_padded {width n : ℕ} (hwidth : 0 < width) (h : n < 10 ^ width)
    (rest : List Char) : number? width (padded width n ++ rest) = some (n, rest) := by
  rw [number?, trimLeft_append padded_ne_nil isDigit_padded,
    digits?_append padded_ne_nil isDigit_padded (length_padded hwidth h).le
      (Or.inl (length_padded hwidth h).symm), value_padded]

theorem mark?_cons {c : Char} (h : isBlank c = false) (rest : List Char) :
    mark? c (c :: rest) = some rest := by
  rw [mark?, trimLeft_cons h]
  simp

/-! ### Dates -/

theorem year?_writeYear (year : Int) (rest : List Char) :
    year? (writeYear year ++ '-' :: rest) = some (year, '-' :: rest) := by
  unfold writeYear
  split
  · rename_i hplain
    have hlt : year.toNat < 10 ^ 4 := by omega
    obtain ⟨c, cs, hcons⟩ := List.exists_cons_of_ne_nil (@padded_ne_nil 4 year.toNat)
    have hdigit : c.isDigit = true := isDigit_padded c (hcons ▸ List.mem_cons_self)
    have hread : digits? 4 (padded 4 year.toNat ++ '-' :: rest) = some (year.toNat, '-' :: rest) := by
      rw [digits?_append padded_ne_nil isDigit_padded (length_padded (by decide) hlt).le
        (Or.inl (length_padded (by decide) hlt).symm), value_padded]
    have hminus : c ≠ '-' := fun h => by subst h; contradiction
    have hplus : c ≠ '+' := fun h => by subst h; contradiction
    rw [year?, trimLeft_append padded_ne_nil isDigit_padded]
    rw [hcons, List.cons_append] at hread ⊢
    simp [hminus, hplus, hread]
    omega
  · rename_i hsigned
    have hread : digits? (padded 4 year.natAbs ++ '-' :: rest).length
        (padded 4 year.natAbs ++ '-' :: rest) = some (year.natAbs, '-' :: rest) := by
      rw [digits?_append padded_ne_nil isDigit_padded (by simp) (Or.inr ⟨'-', rest, rfl, rfl⟩),
        value_padded]
    split
    · rw [List.cons_append, year?, trimLeft_cons rfl]
      simp only [hread, Option.map_some]
      congr 2
      omega
    · rw [List.cons_append, year?, trimLeft_cons rfl]
      simp only [hread, Option.map_some]
      congr 2
      omega

theorem Date.lt_of_isValid {d : Date} (h : d.isValid = true) :
    d.month < 10 ^ 2 ∧ d.day < 10 ^ 2 := by
  simp only [isValid, Bool.and_eq_true, decide_eq_true_eq] at h
  obtain ⟨hfirst, hlast⟩ := h
  unfold daysInMonth at hlast
  split at hlast
  · rename_i hmonth
    rw [beq_iff_eq.mp hmonth]
    split at hlast <;> omega
  · simp only [Bool.or_eq_true, beq_iff_eq, Bool.and_eq_true, decide_eq_true_eq] at hlast
    split at hlast
    · omega
    · split at hlast <;> omega

theorem date?_write {d : Date} (hyear : -262143 ≤ d.year ∧ d.year ≤ 262142)
    (hvalid : d.isValid = true) (rest : List Char) : date? (d.write ++ rest) = some (d, rest) := by
  obtain ⟨hmonth, hday⟩ := Date.lt_of_isValid hvalid
  have hwrite : d.write ++ rest = writeYear d.year ++ '-' :: (padded 2 d.month ++
      '-' :: (padded 2 d.day ++ rest)) := by
    simp [Date.write]
  rw [hwrite, date?]
  simp only [year?_writeYear, mark?_cons (show isBlank '-' = false from rfl), Option.bind_some,
    number?_padded (by decide) hmonth, number?_padded (by decide) hday, bind, hyear, hvalid,
    and_self, if_true]

/-! ### Times of day -/

section Fraction

variable {c : Char} (hdigit : c.isDigit = false) (rest : List Char)
include hdigit

theorem fraction?_padded {width n : ℕ} (hwidth : 0 < width ∧ width ≤ 9) (h : n < 10 ^ width) :
    fraction? ('.' :: padded width n ++ c :: rest) =
      some (n * 10 ^ (9 - width), c :: rest) := by
  have hlength := length_padded hwidth.1 h
  have hrun : ((padded width n ++ c :: rest).take 9).takeWhile Char.isDigit = padded width n :=
    takeWhile_take isDigit_padded (by omega) (Or.inr ⟨c, rest, rfl, hdigit⟩)
  have hdrop : (padded width n ++ c :: rest).dropWhile Char.isDigit = c :: rest := by
    rw [List.dropWhile_append_of_pos isDigit_padded, List.dropWhile_cons_of_neg (by simp [hdigit])]
  rw [List.cons_append, fraction?]
  simp [hrun, hdrop, hlength, value_padded, padded_ne_nil]

theorem fraction?_writeFraction {nanos : ℕ} (h : nanos < 1000000000) (hpoint : c ≠ '.') :
    fraction? (writeFraction nanos ++ c :: rest) = some (nanos, c :: rest) := by
  unfold writeFraction
  split
  · rename_i hzero
    rw [List.nil_append, fraction?, beq_iff_eq.mp hzero]
    simp [hpoint]
  · split
    · rename_i hmillis
      have hwhole := beq_iff_eq.mp hmillis
      rw [fraction?_padded hdigit rest (by decide) (by omega), show 9 - 3 = 6 from rfl]
      congr 2
      omega
    · split
      · rename_i hmicros
        have hwhole := beq_iff_eq.mp hmicros
        rw [fraction?_padded hdigit rest (by decide) (by omega), show 9 - 6 = 3 from rfl]
        congr 2
        omega
      · rw [fraction?_padded hdigit rest (by decide) (by omega), Nat.sub_self, Nat.pow_zero,
          Nat.mul_one]

end Fraction

namespace Timestamp

/-- A point in time with a text of its own: covered by the calendar, and no leap second within a
minute. -/
def IsCivil (t : Timestamp) : Prop :=
  t.Covered ∧ (t.leap = true → t.nanos / 1000000000 % 60 = 59)

theorem ofDay_lt (t : Timestamp) : t.ofDay < 86400 * 1000000000 := by
  unfold ofDay dayNanos
  omega

/-- The second of a day, counted through all days. -/
theorem ofDay_div (t : Timestamp) :
    ((t.ofDay / 1000000000 % 60 : ℕ) : Int) = t.nanos / 1000000000 % 60 := by
  unfold ofDay dayNanos
  omega

/-- The parts of a time of day put together again. -/
theorem clock_spec {t : Timestamp} (h : t.IsCivil) {hour minute second nanos : ℕ}
    (hclock : t.clock = (hour, minute, second, nanos)) :
    hour < 24 ∧ minute < 60 ∧ second ≤ 60 ∧ nanos < 1000000000 ∧
      (hour * 3600 + minute * 60 + min second 59) * 1000000000 + nanos = t.ofDay ∧
      (second == 60) = t.leap := by
  have hlt := t.ofDay_lt
  have hlast := h.2
  rw [← ofDay_div] at hlast
  simp only [clock, Prod.mk.injEq] at hclock
  generalize t.ofDay = ofDay at *
  obtain ⟨rfl, rfl, rfl, rfl⟩ := hclock
  cases hleap : t.leap with
  | false =>
    simp only [Bool.false_eq_true, if_false, Nat.add_zero, beq_eq_false_iff_ne]
    omega
  | true =>
    have hsecond : ofDay / 1000000000 % 60 = 59 := by exact_mod_cast hlast hleap
    simp only [if_true, hsecond]
    refine ⟨by omega, by omega, by omega, by omega, ?_, rfl⟩
    rw [show min (59 + 1) 59 = 59 from rfl]
    omega

theorem clock?_writeClock {t : Timestamp} (h : t.IsCivil) {c : Char} (hdigit : c.isDigit = false)
    (hpoint : c ≠ '.') (rest : List Char) :
    clock? (t.writeClock ++ c :: rest) = some ((t.ofDay, t.leap), c :: rest) := by
  obtain ⟨hour, minute, second, nanos, hclock⟩ : ∃ hour minute second nanos,
      t.clock = (hour, minute, second, nanos) := ⟨_, _, _, _, rfl⟩
  have hparts := clock_spec h hclock
  obtain ⟨hhour, hminute, hsecond, hnanos, hofDay, hleap⟩ := hparts
  have hwrite : t.writeClock ++ c :: rest = padded 2 hour ++ ':' :: (padded 2 minute ++
      ':' :: (padded 2 second ++ (writeFraction nanos ++ c :: rest))) := by
    simp [writeClock, hclock]
  rw [hwrite, clock?]
  simp only [number?_padded (show 0 < 2 by decide) (show hour < 10 ^ 2 by omega),
    number?_padded (show 0 < 2 by decide) (show minute < 10 ^ 2 by omega),
    number?_padded (show 0 < 2 by decide) (show second < 10 ^ 2 by omega),
    mark?_cons (show isBlank ':' = false from rfl), Option.bind_some, bind,
    fraction?_writeFraction hdigit rest hnanos hpoint, hhour, hminute, hsecond, and_self, if_true,
    hofDay, hleap]

/-- A day and the time of day put together again. -/
theorem ofParts_date (t : Timestamp) : ofParts t.date t.ofDay t.leap = t := by
  have hnanos : t.nanos / dayNanos * dayNanos + t.ofDay = t.nanos := by
    unfold ofDay dayNanos
    omega
  rw [ofParts, date, Date.toDays_ofDays, hnanos]

theorem year_date {t : Timestamp} (h : t.Covered) :
    -262143 ≤ t.date.year ∧ t.date.year ≤ 262142 := by
  obtain ⟨hle, hlt⟩ := h
  simp only [earliest, afterLatest] at hle hlt
  refine ⟨Date.le_year_ofDays ?_, Int.lt_add_one_iff.mp (Date.year_ofDays_lt ?_)⟩
  · exact Int.le_ediv_of_mul_le (by decide) hle
  · exact Int.ediv_lt_of_lt_mul (by decide) hlt

/-- **A point in time is read back from its text.** -/
theorem ofText?_toText {t : Timestamp} (h : t.IsCivil) : ofText? t.toText = some t := by
  have hwrite : t.date.write ++ 'T' :: t.writeClock ++ ['Z'] =
      t.date.write ++ 'T' :: (t.writeClock ++ ['Z']) := by simp
  have hclock : clock? (t.writeClock ++ ['Z']) = some ((t.ofDay, t.leap), ['Z']) :=
    clock?_writeClock h rfl (by decide) []
  have hdivider : divider? ('T' :: (t.writeClock ++ ['Z'])) = some (t.writeClock ++ ['Z']) := rfl
  have hzone : zone? ['Z'] = some (0, []) := rfl
  obtain ⟨hle, hlt⟩ := h.1
  rw [toText, ofText?, String.toList_ofList, hwrite,
    date?_write (year_date h.1) (Date.isValid_ofDays _)]
  simp only [bind, Option.bind_some, hdivider, hclock, hzone, ofParts_date]
  simp [hle, hlt]

/-! ### What texts name -/

/-- A fraction is less than a second. -/
theorem lt_of_fraction? {cs rest : List Char} {nanos : ℕ} (h : fraction? cs = some (nanos, rest)) :
    nanos < 1000000000 := by
  unfold fraction? at h
  split at h
  · rename_i digits
    simp only at h
    split at h
    · cases h
    · cases h
      generalize hrun : (digits.take 9).takeWhile Char.isDigit = run
      have hdigits : ∀ c ∈ run, c.isDigit = true := fun c hc =>
        List.mem_takeWhile_imp (hrun ▸ hc)
      have hlength : run.length ≤ 9 := by
        rw [← hrun]
        exact (List.takeWhile_prefix _).length_le.trans (List.length_take_le _ _)
      have hlt := ofDigitChars_lt run 0 hdigits
      rw [Nat.zero_add, Nat.one_mul] at hlt
      calc value run * 10 ^ (9 - run.length)
          < 10 ^ run.length * 10 ^ (9 - run.length) :=
            Nat.mul_lt_mul_of_pos_right hlt (Nat.pow_pos (by decide))
        _ = 10 ^ 9 := by rw [← Nat.pow_add, Nat.add_sub_cancel' hlength]
  · cases h
    decide

/-- A leap second is read at the end of a minute only. -/
theorem leap_of_clock? {cs rest : List Char} {ofDay : ℕ}
    (h : clock? cs = some ((ofDay, true), rest)) : ofDay / 1000000000 % 60 = 59 := by
  simp only [clock?, Option.bind_eq_bind, Option.bind_eq_some_iff] at h
  obtain ⟨⟨hour, _⟩, -, ⟨minute, _⟩, -, ⟨second, _⟩, -, ⟨nanos, _⟩, hfraction, h⟩ := h
  have hnanos := lt_of_fraction? hfraction
  split at h
  · simp only [Option.some.injEq, Prod.mk.injEq, beq_iff_eq] at h
    obtain ⟨⟨rfl, rfl⟩, -⟩ := h
    omega
  · cases h

/-- **A text names a point in time with a text of its own.** -/
theorem isCivil_of_ofText? {text : String} {t : Timestamp} (h : ofText? text = some t) :
    t.IsCivil := by
  simp only [ofText?, Option.bind_eq_bind, Option.bind_eq_some_iff] at h
  obtain ⟨⟨d, _⟩, -, ⟨⟨ofDay, leap⟩, _⟩, ⟨_, -, hclock⟩, ⟨minutes, _⟩, -, h⟩ := h
  split at h
  · rename_i hcovered
    cases h
    refine ⟨⟨hcovered.2.2.1, hcovered.2.2.2⟩, fun hleap => ?_⟩
    simp only at hleap
    subst hleap
    have hsecond := leap_of_clock? hclock
    simp only [ofParts, dayNanos]
    omega
  · cases h

end Timestamp

end QuotaWatch.Time
