/-
# Days and dates

Every day has a date of the calendar and is the day of that date (`toDays_ofDays`,
`isValid_ofDays`). Years that start in March run in cycles of four hundred, one hundred and
four years; in a cycle each part but the last has the same length, and the last day of all is
29 February. So a day number is taken apart once (`exists_cycles`), and what a date is made
of is read off the parts.

Key definitions: `Date.ofYearDay`.
Key theorems: `Date.exists_ofDays`, `Date.toDays_ofDays`, `Date.isValid_ofDays`,
`Date.le_year_ofDays`, `Date.year_ofDays_lt`.
-/
import Mathlib.Tactic.IntervalCases
import Mathlib.Tactic.LinearCombination
import Mathlib.Tactic.Ring
import QuotaWatch.Time.Calendar

namespace QuotaWatch.Time.Date

/-- The date of a day in a year that starts in March. -/
def ofYearDay (year inYear : Int) : Date :=
  let month := (5 * inYear + 2) / 153
  let day := (inYear - daysBeforeMonth month + 1).toNat
  if month < 10 then ⟨year, (month + 3).toNat, day⟩ else ⟨year + 1, (month - 9).toNat, day⟩

/-- A day of four hundred years in centuries, leap cycles, years and days. A century has no leap
day at its end, unless it is the last one. -/
theorem exists_cycles {e : Int} (h : 0 ≤ e ∧ e < 146097) :
    ∃ c q y r : Int, e = 36524 * c + 1461 * q + 365 * y + r ∧ (0 ≤ c ∧ c ≤ 3) ∧
      (0 ≤ q ∧ q ≤ 24) ∧ (0 ≤ y ∧ y ≤ 3) ∧ (0 ≤ r ∧ r ≤ 365) ∧
      (r = 365 → y = 3 ∧ (q = 24 → c = 3)) := by
  obtain ⟨c, f, hc, hcentury⟩ : ∃ c f : Int, e = 36524 * c + f ∧
      (0 ≤ c ∧ c ≤ 3 ∧ 0 ≤ f ∧ (f < 36524 ∨ c = 3 ∧ f = 36524)) := by
    by_cases hlast : e = 146096
    · exact ⟨3, 36524, by omega, by omega⟩
    · exact ⟨e / 36524, e % 36524, by omega, by omega⟩
  obtain ⟨q, g, hq, hcycle⟩ : ∃ q g : Int, f = 1461 * q + g ∧
      (0 ≤ q ∧ q ≤ 24 ∧ 0 ≤ g ∧ g < 1461 ∧ (g = 1460 → q = 24 → c = 3)) :=
    ⟨f / 1461, f % 1461, by omega, by omega⟩
  by_cases hlast : g = 1460
  · exact ⟨c, q, 3, 365, by omega, by omega, by omega, by omega, by omega, by omega⟩
  · exact ⟨c, q, g / 365, g % 365, by omega, by omega, by omega, by omega, by omega, by omega⟩

section Cycles

variable {c q y r : Int} (hc : 0 ≤ c ∧ c ≤ 3) (hq : 0 ≤ q ∧ q ≤ 24) (hy : 0 ≤ y ∧ y ≤ 3)
  (hr : 0 ≤ r ∧ r ≤ 365) (hleap : r = 365 → y = 3 ∧ (q = 24 → c = 3))
include hc hq hy hr hleap

/-- The year of a day, out of the days without the leap days before it. -/
theorem yearOfEra_eq {e : Int} (he : e = 36524 * c + 1461 * q + 365 * y + r) :
    (e - e / 1460 + e / 36524 - e / 146096) / 365 = 100 * c + 4 * q + y := by
  have hcenturies : e / 36524 - e / 146096 = c := by
    rcases (show e < 146096 ∨ e = 146096 by omega) with h | h
    · have hlong : e / 146096 = 0 := by omega
      have hshort : e / 36524 = c := by omega
      omega
    · subst h
      omega
  have hleaps : e / 1460 = 25 * c + q ∧ 24 * c + q + 365 * y + r < 1460 ∨
      e / 1460 = 25 * c + q + 1 ∧ 1460 ≤ 24 * c + q + 365 * y + r := by
    rcases (show 24 * c + q + 365 * y + r < 1460 ∨ 1460 ≤ 24 * c + q + 365 * y + r by omega)
      with h | h
    · exact Or.inl ⟨by omega, h⟩
    · exact Or.inr ⟨by omega, h⟩
  generalize e / 1460 = leaps at *
  generalize e / 36524 = centuries at *
  generalize e / 146096 = eras at *
  omega

end Cycles

/-- The leap days before a year, out of its eras, centuries and cycles. -/
theorem div_year {c q y year : Int} (era : Int) (hc : 0 ≤ c ∧ c ≤ 3) (hq : 0 ≤ q ∧ q ≤ 24)
    (hy : 0 ≤ y ∧ y ≤ 3) (hyear : year = 100 * c + 4 * q + y + era * 400) :
    year / 4 = 25 * c + q + 100 * era ∧ year / 100 = c + 4 * era ∧ year / 400 = era :=
  ⟨by omega, by omega, by omega⟩

/-- **The date of a day**, in a year that starts in March: the days of the years before and the
day in the year; 29 February is there in leap years only. -/
theorem exists_ofDays (days : Int) : ∃ year inYear : Int,
    ofDays days = ofYearDay year inYear ∧
    days + epochDays = 365 * year + year / 4 - year / 100 + year / 400 + inYear ∧
    (0 ≤ inYear ∧ inYear ≤ 365) ∧ (inYear = 365 → isLeapYear (year + 1) = true) := by
  have hsplit := Int.mul_ediv_add_emod (days + epochDays) 146097
  have hrange : 0 ≤ (days + epochDays) % 146097 ∧ (days + epochDays) % 146097 < 146097 := by omega
  obtain ⟨c, q, y, r, hcycles, hc, hq, hy, hr, hleap⟩ := exists_cycles hrange
  have hinYear : (days + epochDays) % 146097 - (365 * (100 * c + 4 * q + y) +
      (100 * c + 4 * q + y) / 4 - (100 * c + 4 * q + y) / 100) = r := by
    obtain ⟨hcycle, hcentury, -⟩ :=
      div_year 0 hc hq hy (show 100 * c + 4 * q + y = _ by rw [zero_mul, add_zero])
    rw [hcycle, hcentury, hcycles]
    ring
  refine ⟨100 * c + 4 * q + y + (days + epochDays) / 146097 * 400, r, ?_, ?_, hr, fun h => ?_⟩
  · have hyear := yearOfEra_eq hc hq hy hr hleap hcycles
    rw [ofDays]
    simp only [hyear, hinYear]
    rfl
  · obtain ⟨hcycle, hcentury, hera⟩ := div_year ((days + epochDays) / 146097) hc hq hy rfl
    rw [hcycle, hcentury, hera]
    linear_combination hcycles - hsplit
  · obtain ⟨rfl, hlast⟩ := hleap h
    simp only [isLeapYear, Bool.and_eq_true, Bool.or_eq_true, beq_iff_eq, bne_iff_ne]
    clear hsplit hrange hcycles hinYear
    generalize (days + epochDays) / 146097 = era
    omega

/-- The month of a day in a year that starts in March, and the day in the month. -/
theorem exists_month {inYear : Int} (h : 0 ≤ inYear ∧ inYear ≤ 365) : ∃ month day : ℕ,
    (5 * inYear + 2) / 153 = month ∧ month ≤ 11 ∧ inYear = daysBeforeMonth month + day ∧
    day ≤ 30 ∧ (month ∈ [1, 3, 6, 8] → day ≤ 29) ∧ (month = 11 → day ≤ 28) ∧
    (month = 11 ∧ day = 28 → inYear = 365) := by
  have hmonth : 0 ≤ (5 * inYear + 2) / 153 ∧ (5 * inYear + 2) / 153 ≤ 11 := by omega
  obtain ⟨month, hm⟩ := Int.eq_ofNat_of_zero_le hmonth.1
  have hle : month ≤ 11 := by omega
  have hday : 0 ≤ inYear - daysBeforeMonth month := by
    unfold daysBeforeMonth
    omega
  obtain ⟨day, hd⟩ := Int.eq_ofNat_of_zero_le hday
  refine ⟨month, day, hm, hle, by omega, ?_⟩
  unfold daysBeforeMonth at hd
  interval_cases month <;> simp <;> omega

theorem ofYearDay_eq (year : Int) {inYear : Int} {month day : ℕ}
    (hmonth : (5 * inYear + 2) / 153 = month) (hday : inYear = daysBeforeMonth month + day) :
    ofYearDay year inYear =
      if month < 10 then ⟨year, month + 3, day + 1⟩ else ⟨year + 1, month - 9, day + 1⟩ := by
  have hnext : (inYear - daysBeforeMonth month + 1).toNat = day + 1 := by omega
  unfold ofYearDay
  simp only [hmonth, hnext]
  split
  · rw [if_pos (by omega), show ((month : Int) + 3).toNat = month + 3 by omega]
  · rw [if_neg (by omega), show ((month : Int) - 9).toNat = month - 9 by omega]

/-- The days before a year, counted in eras. -/
theorem daysBeforeYear_eq (year : Int) :
    year / 400 * 146097 + (year % 400 * 365 + year % 400 / 4 - year % 400 / 100) =
      365 * year + year / 4 - year / 100 + year / 400 := by
  have hsplit := Int.mul_ediv_add_emod year 400
  have hfour : year / 4 = 100 * (year / 400) + year % 400 / 4 := by omega
  have hhundred : year / 100 = 4 * (year / 400) + year % 400 / 100 := by omega
  rw [hfour, hhundred]
  linear_combination 365 * hsplit

/-- **Every day is the day of its date.** -/
theorem toDays_ofDays (days : Int) : (ofDays days).toDays = days := by
  obtain ⟨year, inYear, hdate, hdays, hin, -⟩ := exists_ofDays days
  obtain ⟨month, day, hmonth, hle, hday, -⟩ := exists_month hin
  rw [hdate, ofYearDay_eq year hmonth hday]
  split
  · simp only [toDays, show ¬month + 3 ≤ 2 by omega, if_false, daysBeforeYear_eq]
    rw [show ((month + 3 : ℕ) : Int) - 3 = month by omega]
    omega
  · simp only [toDays, show month - 9 ≤ 2 by omega, if_true, Int.add_sub_cancel,
      daysBeforeYear_eq]
    rw [show ((month - 9 : ℕ) : Int) + 9 = month by omega]
    omega

/-- **Every day has a date of the calendar.** -/
theorem isValid_ofDays (days : Int) : (ofDays days).isValid = true := by
  obtain ⟨year, inYear, hdate, -, hin, hleap⟩ := exists_ofDays days
  obtain ⟨month, day, hmonth, hle, hday, h31, h30, h29, hlast⟩ := exists_month hin
  have hfebruary : month = 11 → day = 28 → isLeapYear (year + 1) = true :=
    fun hm hd => hleap (hlast ⟨hm, hd⟩)
  rw [hdate, ofYearDay_eq year hmonth hday]
  clear hmonth hday
  by_cases hm : month = 11
  · subst hm
    have hd29 := h29 rfl
    by_cases hd : day = 28
    · subst hd
      simp [isValid, daysInMonth, hfebruary rfl rfl]
    · have hlength : 28 ≤ daysInMonth (year + 1) 2 := by
        unfold daysInMonth
        cases isLeapYear (year + 1) <;> decide
      simp [isValid]
      omega
  · have hlt : month ≤ 10 := by omega
    interval_cases month <;> simp [isValid, daysInMonth] at h30 ⊢ <;> omega

/-- The first day of a year, in years that start in March. -/
theorem toDays_newYear (year : Int) : (Date.mk year 1 1).toDays + epochDays =
    365 * (year - 1) + (year - 1) / 4 - (year - 1) / 100 + (year - 1) / 400 + 306 := by
  have hmonth : daysBeforeMonth ((1 : ℕ) + 9) = 306 := rfl
  simp only [toDays, show (1 : ℕ) ≤ 2 by decide, if_true, daysBeforeYear_eq, hmonth]
  omega

theorem le_year_ofDays {days year : Int} (h : (Date.mk year 1 1).toDays ≤ days) :
    year ≤ (ofDays days).year := by
  obtain ⟨start, inYear, hdate, hdays, hin, -⟩ := exists_ofDays days
  obtain ⟨month, day, hmonth, -, hday, -⟩ := exists_month hin
  have hnew := toDays_newYear year
  rw [hdate, ofYearDay_eq start hmonth hday]
  split
  · have hbefore : inYear < 306 := by omega
    show year ≤ start
    clear hmonth hday hdate
    by_contra hlt
    omega
  · show year ≤ start + 1
    clear hmonth hday hdate
    by_contra hlt
    omega

theorem year_ofDays_lt {days year : Int} (h : days < (Date.mk year 1 1).toDays) :
    (ofDays days).year < year := by
  obtain ⟨start, inYear, hdate, hdays, hin, -⟩ := exists_ofDays days
  obtain ⟨month, day, hmonth, -, hday, -⟩ := exists_month hin
  have hnew := toDays_newYear year
  rw [hdate, ofYearDay_eq start hmonth hday]
  split
  · show start < year
    clear hmonth hday hdate
    by_contra hle
    omega
  · have hafter : 306 ≤ inYear := by omega
    show start + 1 < year
    clear hmonth hday hdate
    by_contra hle
    omega

end QuotaWatch.Time.Date
