/-
# Points in time

A timestamp counts nanoseconds from the start of 1970, and a leap second is counted as the
second before it, with a mark. Timestamps are ordered by their seconds, a leap second behind
the second that it is counted as. A length of time taken off a leap second gives a time
within that second or the minute before it, and the time that has passed counts the leap
second only where one of its two ends is in it and the other is not. So a leap second is
felt as a jump of the clock: it lies a second behind the second before it, and a second
before the one behind it, which are themselves a second apart. Between two timestamps of
which neither is a leap second all is as their counts have it.

Assumed of the date library: `between` is its difference of two times, `back?` its
subtraction of a length of time with its bounds, and the order is that of its times.

Key definitions: `Span`, `Timestamp`, `Timestamp.rank`, `Timestamp.between`,
`Timestamp.elapsed`, `Timestamp.hasElapsed`, `Timestamp.back`, `Timestamp.back?`,
`Timestamp.date`, `Timestamp.clock`.
Key theorems: `Span.millis_ofMillis`, `Timestamp.back_le`, `Timestamp.back?_eq_some`,
`Timestamp.between_of_plain`, `Timestamp.back_of_plain`, `Timestamp.lt_iff_of_plain`.
-/
import QuotaWatch.Time.Calendar

namespace QuotaWatch.Time

/-- A length of time in whole milliseconds. -/
abbrev Millis := UInt64

/-- A length of time in nanoseconds. -/
structure Span where
  nanos : Nat
deriving Repr, DecidableEq, Inhabited

namespace Span

def zero : Span := ⟨0⟩

def ofMillis (m : Millis) : Span := ⟨m.toNat * 1000000⟩

/-- The whole milliseconds of a length of time, as a 64-bit word. -/
def millis (s : Span) : Millis := UInt64.ofNat (s.nanos / 1000000)

instance : Coe Millis Span := ⟨ofMillis⟩

instance : CoeTail Span Millis := ⟨millis⟩

theorem millis_ofMillis (m : Millis) : (ofMillis m).millis = m := by
  rw [millis, ofMillis, Nat.mul_div_cancel _ (by decide), UInt64.ofNat_toNat]

end Span

/-- A point in time, in nanoseconds since the start of 1970. A leap second is
counted as the second before it and marked. -/
structure Timestamp where
  nanos : Int
  leap : Bool := false
deriving Repr, DecidableEq, Inhabited

namespace Timestamp

/-- The start of 1970. -/
def epoch : Timestamp := ⟨0, false⟩

/-- A number of microseconds since the start of 1970. -/
def ofMicros (micros : Int) : Timestamp := ⟨micros * 1000, false⟩

/-- Nanoseconds in a day. -/
def dayNanos : Int := 86400 * 1000000000

/-- The first point in time that the calendar covers. -/
def earliest : Timestamp := ⟨(Date.mk (-262143) 1 1).toDays * dayNanos, false⟩

/-- The first point in time behind those that the calendar covers. -/
def afterLatest : Timestamp := ⟨(Date.mk 262143 1 1).toDays * dayNanos, false⟩

/-- The second of a timestamp, a leap second being counted as the one before it. -/
def second (t : Timestamp) : Int := t.nanos / 1000000000

/-- The second of the day. -/
def secondOfDay (t : Timestamp) : Int := t.second % 86400

/-- Nanoseconds within the second, and a whole second more in a leap second. -/
def fraction (t : Timestamp) : Int := t.nanos % 1000000000 + if t.leap then 1000000000 else 0

/-- The place in the order of all timestamps: there is room for a leap second behind
every second. -/
def rank (t : Timestamp) : Int := t.second * 2000000000 + t.fraction

instance : LT Timestamp := ⟨fun a b => a.rank < b.rank⟩

instance : LE Timestamp := ⟨fun a b => a.rank ≤ b.rank⟩

instance (a b : Timestamp) : Decidable (a < b) := inferInstanceAs (Decidable (a.rank < b.rank))

instance (a b : Timestamp) : Decidable (a ≤ b) := inferInstanceAs (Decidable (a.rank ≤ b.rank))

/-- Nanoseconds from one timestamp to another, less than none where the clock went back.
A leap second counts as a second of its own if a later second of the day follows. -/
def between (since now : Timestamp) : Int :=
  let counted : Int :=
    if since.leap ∧ since.secondOfDay < now.secondOfDay then 1
    else if now.leap ∧ now.secondOfDay < since.secondOfDay then -1
    else 0
  (now.second - since.second + counted) * 1000000000 + (now.fraction - since.fraction)

/-- Nanoseconds that passed; none where the clock went back. -/
def elapsed (since now : Timestamp) : Nat := (between since now).toNat

/-- Whether a length of time has passed. -/
def hasElapsed (since now : Timestamp) (timeout : Span) : Bool :=
  timeout.nanos ≤ elapsed since now

/-- The longest length of time that can be taken off a timestamp. -/
def longestSpan : Span := .ofMillis 9223372036854775807

/-- The point in time a length of time earlier. From a leap second it lies in that second,
or as far back from its end as if there were none. -/
def back (t : Timestamp) (span : Span) : Timestamp :=
  if t.leap then
    if span.nanos ≤ t.nanos % 1000000000 then ⟨t.nanos - span.nanos, true⟩
    else ⟨t.nanos + 1000000000 - span.nanos, false⟩
  else ⟨t.nanos - span.nanos, false⟩

/-- The point in time a length of time earlier, where the calendar covers it. -/
def back? (t : Timestamp) (span : Span) : Option Timestamp :=
  if span.nanos ≤ longestSpan.nanos ∧ earliest.nanos ≤ (t.back span).nanos then some (t.back span)
  else none

/-- The date of a timestamp. -/
def date (t : Timestamp) : Date := Date.ofDays (t.nanos / dayNanos)

/-- Nanoseconds since midnight. -/
def ofDay (t : Timestamp) : Nat := (t.nanos % dayNanos).toNat

/-- Hour, minute, second and nanoseconds; a leap second is the sixtieth. -/
def clock (t : Timestamp) : Nat × Nat × Nat × Nat :=
  let seconds := t.ofDay / 1000000000
  (seconds / 3600, seconds / 60 % 60, seconds % 60 + (if t.leap then 1 else 0),
    t.ofDay % 1000000000)

/-- The point in time of a date and a time of day in nanoseconds. -/
def ofParts (d : Date) (ofDay : Nat) (leap : Bool) : Timestamp :=
  ⟨d.toDays * dayNanos + ofDay, leap⟩

theorem le_iff {a b : Timestamp} : a ≤ b ↔ a.rank ≤ b.rank := Iff.rfl

theorem lt_iff {a b : Timestamp} : a < b ↔ a.rank < b.rank := Iff.rfl

theorem not_lt {a b : Timestamp} : ¬ a < b ↔ b ≤ a := Int.not_lt

theorem not_le {a b : Timestamp} : ¬ a ≤ b ↔ b < a := Int.not_le

theorem le_trans {a b c : Timestamp} (h : a ≤ b) (h' : b ≤ c) : a ≤ c := Int.le_trans h h'

/-- A leap second adds a second to the fraction, and nothing else does. -/
theorem fraction_bounds (t : Timestamp) :
    t.nanos % 1000000000 ≤ t.fraction ∧ t.fraction ≤ t.nanos % 1000000000 + 1000000000 := by
  unfold fraction
  split <;> omega

theorem second_le_of_le {a b : Timestamp} (h : a ≤ b) : a.second ≤ b.second := by
  have := fraction_bounds a
  have := fraction_bounds b
  rw [le_iff, rank, rank] at h
  omega

/-- No length of time leads forward. -/
theorem back_le (t : Timestamp) (span : Span) : t.back span ≤ t := by
  rw [le_iff, rank, rank, back]
  cases hleap : t.leap with
  | true =>
    by_cases hspan : (span.nanos : Int) ≤ t.nanos % 1000000000
    · simp only [↓reduceIte, if_pos hspan, second, fraction, hleap]
      omega
    · simp only [↓reduceIte, if_neg hspan, second, fraction, hleap, Bool.false_eq_true]
      omega
  | false =>
    simp only [Bool.false_eq_true, ↓reduceIte, second, fraction, hleap]
    omega

/-- A length of time leads back but for the second that a leap second is. -/
theorem nanos_back_le (t : Timestamp) (span : Span) :
    (t.back span).nanos ≤ t.nanos + 1000000000 - span.nanos := by
  unfold back
  split
  · split
    · exact Int.sub_le_sub_right (Int.le_add_of_nonneg_right (by decide)) _
    · exact Int.le_refl _
  · exact Int.sub_le_sub_right (Int.le_add_of_nonneg_right (by decide)) _

theorem back?_eq_some {t cutoff : Timestamp} {span : Span} (h : t.back? span = some cutoff) :
    (span.nanos ≤ longestSpan.nanos ∧ earliest.nanos ≤ cutoff.nanos) ∧ t.back span = cutoff := by
  unfold back? at h
  split at h
  · rename_i hwithin
    cases h
    exact ⟨hwithin, rfl⟩
  · cases h

/-- What lies before the calendar is no later than what lies in it. -/
theorem le_of_nanos_lt_earliest {a b : Timestamp} (ha : a.nanos < earliest.nanos)
    (hb : earliest.nanos ≤ b.nanos) : a ≤ b := by
  have hwhole : earliest.nanos % 1000000000 = 0 := by decide +kernel
  have := fraction_bounds a
  have := fraction_bounds b
  rw [le_iff, rank, rank, second, second]
  omega

section Plain

variable {since now a b t : Timestamp}

/-- Where no leap second is at an end, what has passed is what the counts tell. -/
theorem between_of_plain (hsince : since.leap = false) (hnow : now.leap = false) :
    between since now = now.nanos - since.nanos := by
  simp only [between, fraction, second, hsince, hnow, Bool.false_eq_true, false_and, ↓reduceIte]
  omega

theorem back_of_plain (h : t.leap = false) (span : Span) :
    t.back span = ⟨t.nanos - span.nanos, false⟩ := by
  simp [back, h]

theorem rank_of_plain (h : t.leap = false) :
    t.rank = t.nanos + t.nanos / 1000000000 * 1000000000 := by
  simp only [rank, fraction, second, h, Bool.false_eq_true, ↓reduceIte]
  omega

theorem lt_iff_of_plain (ha : a.leap = false) (hb : b.leap = false) :
    a < b ↔ a.nanos < b.nanos := by
  rw [lt_iff, rank_of_plain ha, rank_of_plain hb]
  omega

end Plain

end Timestamp

end QuotaWatch.Time
