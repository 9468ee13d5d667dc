/-
# What a window retains

A reading is stale behind a push if it is older than the retention before the
reading that is pushed. A push drops stale readings from the old end only, up to
the first one that is not (`readings_push`). Where the clock never goes back
the readings are in the order of their times, so this drops all of them and a
window holds what its latest reading leaves fresh (`readings_pushAll`). Where the
clock was set back a stale reading can stand behind a fresh one, and is kept
(`not_fresh_of_set_back`), and a push in a leap second can drop a reading that is fresh again
at the push behind it (`not_readings_of_leapSecond`).

Key definitions: `Timestamp.Covered`, `Window.pushAll`, `Window.isStale`, `setBack`,
`aroundLeapSecond`.
Key theorems: `Window.readings_push`, `Window.stale_behind_fresh`,
`Window.readings_pushAll`.
-/
import Mathlib.Data.List.Chain
import Mathlib.Data.List.Induction
import QuotaWatch.Window

namespace QuotaWatch

open Time

/-- Whether the calendar covers a point in time; there are no others. -/
def Time.Timestamp.Covered (t : Timestamp) : Prop :=
  earliest.nanos ≤ t.nanos ∧ t.nanos < afterLatest.nanos

instance (t : Timestamp) : Decidable t.Covered :=
  inferInstanceAs (Decidable (_ ∧ _))

namespace Window

/-- Whether a reading is older than the retention before `now`. -/
def isStale (retention : Span) (now : Timestamp) (r : Reading) : Bool :=
  r.timestamp < now.back retention

/-- Take in readings in order. -/
def pushAll (w : Window) (readings : List Reading) : Window := readings.foldl push w

theorem pushAll_concat (w : Window) (readings : List Reading) (r : Reading) :
    w.pushAll (readings ++ [r]) = (w.pushAll readings).push r := by
  rw [pushAll, List.foldl_append, List.foldl_cons, List.foldl_nil, pushAll]

/-! ### One push -/

@[simp] theorem retention_push (w : Window) (r : Reading) :
    (w.push r).retention = w.retention := by
  unfold push
  split <;> rfl

/-- The calendar is shorter than any length of time that cannot be taken off, and where the
cutoff lies before the calendar nothing is stale. -/
theorem not_isStale_of_back?_none {t : Timestamp} {retention : Span} {r : Reading}
    (ht : t.Covered) (hr : r.timestamp.Covered) (h : t.back? retention = none) :
    isStale retention t r = false := by
  have hlength : Timestamp.afterLatest.nanos + 1000000000 - Timestamp.earliest.nanos ≤
      Timestamp.longestSpan.nanos := by decide +kernel
  have hback : (t.back retention).nanos ≤ t.nanos + 1000000000 - retention.nanos :=
    Timestamp.nanos_back_le t retention
  obtain ⟨-, hlt⟩ := ht
  obtain ⟨hle, -⟩ := hr
  rw [isStale, decide_eq_false_iff_not, Timestamp.not_lt]
  refine Timestamp.le_of_nanos_lt_earliest ?_ hle
  rw [Timestamp.back?] at h
  split at h
  · cases h
  · omega

/-- **A push drops the leading stale readings**, also where the cutoff lies before the
calendar or the retention is longer than it. -/
theorem readings_push {w : Window} {r : Reading} (hr : r.timestamp.Covered)
    (hw : ∀ x ∈ w.readings, x.timestamp.Covered) :
    (w.push r).readings = (w.readings ++ [r]).dropWhile (isStale w.retention r.timestamp) := by
  unfold push
  cases hback : r.timestamp.back? w.retention with
  | some cutoff =>
    obtain ⟨-, rfl⟩ := Timestamp.back?_eq_some hback
    rfl
  | none =>
    have hfresh : ∀ x ∈ w.readings ++ [r], isStale w.retention r.timestamp x = false := by
      intro x hx
      refine not_isStale_of_back?_none hr ?_ hback
      rcases List.mem_append.mp hx with hx | hx
      · exact hw x hx
      · rwa [List.mem_singleton.mp hx]
    cases hall : w.readings ++ [r] with
    | nil => rfl
    | cons x xs =>
      rw [List.dropWhile_cons_of_neg]
      simp [hfresh x (by rw [hall]; exact List.mem_cons_self)]

/-! ### Runs of pushes -/

@[simp] theorem retention_pushAll (w : Window) (readings : List Reading) :
    (w.pushAll readings).retention = w.retention := by
  induction readings using List.reverseRecOn with
  | nil => rfl
  | append_singleton readings r ih => rw [pushAll_concat, retention_push, ih]

theorem readings_push_sublist (w : Window) (r : Reading) :
    (w.push r).readings.Sublist (w.readings ++ [r]) := by
  unfold push
  split
  · exact List.dropWhile_sublist _
  · exact List.Sublist.refl _

/-- What is retained was pushed, and stays in the order of the pushes. -/
theorem readings_pushAll_sublist (w : Window) (readings : List Reading) :
    (w.pushAll readings).readings.Sublist (w.readings ++ readings) := by
  induction readings using List.reverseRecOn with
  | nil => rw [List.append_nil]; exact List.Sublist.refl _
  | append_singleton readings r ih =>
    rw [pushAll_concat, ← List.append_assoc]
    exact (readings_push_sublist _ r).trans (ih.append_right [r])

theorem covered_pushAll {retention : Span} {readings : List Reading}
    (h : ∀ r ∈ readings, r.timestamp.Covered) :
    ∀ r ∈ (({ retention } : Window).pushAll readings).readings, r.timestamp.Covered :=
  fun r hr => h r ((readings_pushAll_sublist { retention } readings).subset hr)

/-- The readings behind a run of pushes are what the last push leaves of those before it. -/
theorem readings_pushAll_concat {retention : Span} {pushed : List Reading} {latest : Reading}
    (hcovered : ∀ r ∈ pushed ++ [latest], r.timestamp.Covered) :
    (({ retention } : Window).pushAll (pushed ++ [latest])).readings =
      ((({ retention } : Window).pushAll pushed).readings ++ [latest]).dropWhile
        (isStale retention latest.timestamp) := by
  have hlatest := hcovered latest (List.mem_append_right _ (List.mem_singleton_self _))
  have hpushed : ∀ r ∈ pushed, r.timestamp.Covered :=
    fun r hr => hcovered r (List.mem_append_left _ hr)
  rw [pushAll_concat, readings_push hlatest (covered_pushAll hpushed), retention_pushAll]

/-! ### Stale readings -/

/-- Behind `dropWhile` an element that it should have dropped stands behind one that it
had to keep. -/
theorem exists_sublist_of_mem_dropWhile {α : Type} {p : α → Bool} {l : List α} {x : α}
    (hx : x ∈ l.dropWhile p) (hp : p x = true) :
    ∃ y, p y = false ∧ [y, x].Sublist (l.dropWhile p) := by
  induction l with
  | nil => cases hx
  | cons a l ih =>
    cases ha : p a with
    | true =>
      rw [List.dropWhile_cons_of_pos ha] at hx ⊢
      exact ih hx
    | false =>
      rw [List.dropWhile_cons_of_neg (by simp [ha])] at hx ⊢
      rcases List.mem_cons.mp hx with rfl | hx
      · rw [hp] at ha
        cases ha
      · exact ⟨a, ha, (List.singleton_sublist.mpr hx).cons_cons a⟩

/-- **A stale reading is retained only behind a fresh one that is later than it.** So no
reading is retained that is older than the retention if those retained are in the
order of their times. -/
theorem stale_behind_fresh (retention : Span) (pushed : List Reading) (latest : Reading)
    (hcovered : ∀ r ∈ pushed ++ [latest], r.timestamp.Covered) :
    let kept := (({ retention } : Window).pushAll (pushed ++ [latest])).readings
    (∀ old ∈ kept, old.timestamp < latest.timestamp.back retention →
      ∃ later, [later, old].Sublist kept ∧
        latest.timestamp.back retention ≤ later.timestamp) ∧
      ((kept.Pairwise fun r r' => r.timestamp ≤ r'.timestamp) →
        ∀ r ∈ kept, latest.timestamp.back retention ≤ r.timestamp) := by
  intro kept
  have hbehind : ∀ old ∈ kept, old.timestamp < latest.timestamp.back retention →
      ∃ later, [later, old].Sublist kept ∧
        latest.timestamp.back retention ≤ later.timestamp := by
    intro old hold hstale
    simp only [kept, readings_pushAll_concat hcovered] at hold ⊢
    obtain ⟨later, hfresh, hsub⟩ := exists_sublist_of_mem_dropWhile hold (decide_eq_true hstale)
    exact ⟨later, hsub, Timestamp.not_lt.mp (of_decide_eq_false hfresh)⟩
  refine ⟨hbehind, fun hordered r hr => ?_⟩
  by_contra hstale
  obtain ⟨later, hsub, hlater⟩ := hbehind r hr (Timestamp.not_le.mp hstale)
  have hle : later.timestamp ≤ r.timestamp :=
    List.rel_of_pairwise_cons (hordered.sublist hsub) (List.mem_singleton_self r)
  exact hstale (Timestamp.le_trans hlater hle)

/-- A reading of nothing but a CPU figure, at a second. -/
def cpuAt (second : Int) (cpu : Figure) : Reading :=
  { cpu, timestamp := .ofMicros (second * 1000000) }

/-- Readings of a clock that is set back for a while. -/
def setBack : List Reading := [cpuAt 100 0, cpuAt 50 100]

theorem stale_behind_fresh_setBack :
    (∀ r ∈ setBack ++ [cpuAt 100 0], r.timestamp.Covered) ∧
      ∃ later, [later, cpuAt 50 100].Sublist
        (({ retention := .ofMillis 10000 } : Window).pushAll (setBack ++ [cpuAt 100 0])).readings ∧
        Timestamp.ofMicros 90000000 ≤ later.timestamp := by
  have hcovered : ∀ r ∈ setBack ++ [cpuAt 100 0], r.timestamp.Covered := by decide +kernel
  exact ⟨hcovered, (stale_behind_fresh (.ofMillis 10000) setBack (cpuAt 100 0) hcovered).1
    (cpuAt 50 100) (by decide +kernel) (by decide +kernel)⟩

/-- A window can hold a reading that is older than its retention: one that was taken while
the clock was set back stands behind one that is fresh, and stays. -/
theorem not_fresh_of_set_back : ¬ ∀ (retention : Span) (pushed : List Reading) (latest : Reading),
    (∀ r ∈ pushed ++ [latest], r.timestamp.Covered) →
      ∀ r ∈ (({ retention } : Window).pushAll (pushed ++ [latest])).readings,
        latest.timestamp.back retention ≤ r.timestamp := by
  intro h
  have hfresh := h (.ofMillis 10000) setBack (cpuAt 100 0) (by decide +kernel) (cpuAt 50 100)
    (by decide +kernel)
  exact absurd hfresh (by decide +kernel)

/-! ### Clocks that never go back -/

/-- Where `p` holds of a leading part of a list, `dropWhile` drops all that it holds of. -/
theorem dropWhile_eq_filter {α : Type} {p : α → Bool} {l : List α}
    (h : l.Pairwise fun x y => p y = true → p x = true) : l.dropWhile p = l.filter (!p ·) := by
  induction l with
  | nil => rfl
  | cons a l ih =>
    obtain ⟨hfirst, hrest⟩ := List.pairwise_cons.mp h
    cases ha : p a with
    | true =>
      rw [List.dropWhile_cons_of_pos ha, ih hrest, List.filter_cons_of_neg (by simp [ha])]
    | false =>
      have hnone : ∀ y ∈ l, (!p y) = true := by
        intro y hy
        rw [Bool.not_eq_true', ← Bool.not_eq_true]
        intro hp
        rw [hfirst y hy hp] at ha
        cases ha
      rw [List.dropWhile_cons_of_neg (by simp [ha]), List.filter_cons_of_pos (by simp [ha]),
        List.filter_eq_self.mpr hnone]

/-- Readings in the order of their times. -/
abbrev Ordered (readings : List Reading) : Prop :=
  readings.Pairwise fun r r' => r.timestamp.nanos ≤ r'.timestamp.nanos

theorem ordered_of_isChain {readings : List Reading}
    (h : readings.IsChain fun r r' : Reading => r.timestamp.nanos ≤ r'.timestamp.nanos) :
    Ordered readings := by
  have : Trans (fun r r' : Reading => r.timestamp.nanos ≤ r'.timestamp.nanos)
      (fun r r' : Reading => r.timestamp.nanos ≤ r'.timestamp.nanos)
      (fun r r' : Reading => r.timestamp.nanos ≤ r'.timestamp.nanos) := ⟨Int.le_trans⟩
  exact List.isChain_iff_pairwise.mp h

/-- The last reading is the latest. -/
theorem Ordered.le_last {readings : List Reading} {last : Reading}
    (h : Ordered (readings ++ [last])) :
    ∀ r ∈ readings ++ [last], r.timestamp.nanos ≤ last.timestamp.nanos := by
  intro r hr
  rcases List.mem_append.mp hr with hr | hr
  · exact (List.pairwise_append.mp h).2.2 r hr last (List.mem_singleton_self _)
  · obtain rfl := List.mem_singleton.mp hr
    exact Int.le_refl _

/-- Where no leap second is at hand the counts tell what is stale. -/
theorem isStale_iff {retention : Span} {now : Timestamp} {r : Reading}
    (hnow : now.leap = false) (hr : r.timestamp.leap = false) :
    isStale retention now r = true ↔ r.timestamp.nanos < now.nanos - retention.nanos := by
  rw [isStale, decide_eq_true_eq, Timestamp.back_of_plain hnow, Timestamp.lt_iff_of_plain hr rfl]

/-- Every reading is stale before the later ones are. -/
theorem Ordered.stale_first {readings : List Reading} (h : Ordered readings)
    (hplain : ∀ r ∈ readings, r.timestamp.leap = false) (retention : Span) {now : Timestamp}
    (hnow : now.leap = false) : readings.Pairwise fun r r' =>
      isStale retention now r' = true → isStale retention now r = true := by
  refine h.imp_of_mem fun {r r'} hr hr' hle hstale => ?_
  rw [isStale_iff hnow (hplain _ hr')] at hstale
  rw [isStale_iff hnow (hplain _ hr)]
  omega

/-- **A window holds what is fresh.** If the clock never goes back and shows no leap second,
a window holds of all that was pushed the readings that are no older than the retention, in
their order. -/
theorem readings_pushAll {retention : Span} {pushed : List Reading} {latest : Reading}
    (hcovered : ∀ r ∈ pushed ++ [latest], r.timestamp.Covered)
    (hplain : ∀ r ∈ pushed ++ [latest], r.timestamp.leap = false)
    (hordered : Ordered (pushed ++ [latest])) :
    (({ retention } : Window).pushAll (pushed ++ [latest])).readings =
      (pushed ++ [latest]).filter (!isStale retention latest.timestamp ·) := by
  induction pushed using List.reverseRecOn generalizing latest with
  | nil =>
    rw [readings_pushAll_concat hcovered]
    exact dropWhile_eq_filter (List.pairwise_singleton _ _)
  | append_singleton pushed previous ih =>
    have hbefore : Ordered (pushed ++ [previous]) := (List.pairwise_append.mp hordered).1
    have hle : previous.timestamp.nanos ≤ latest.timestamp.nanos :=
      hordered.le_last previous (by simp)
    have hplain' : ∀ r ∈ pushed ++ [previous], r.timestamp.leap = false :=
      fun r hr => hplain r (List.mem_append_left _ hr)
    have hlatest : latest.timestamp.leap = false := hplain latest (by simp)
    have hprevious : previous.timestamp.leap = false := hplain' previous (by simp)
    have hkept : ((({ retention } : Window).pushAll (pushed ++ [previous])).readings ++
        [latest]).Sublist ((pushed ++ [previous]) ++ [latest]) :=
      (readings_pushAll_sublist { retention } _).append_right [latest]
    -- what was stale before is stale now, so it does not matter that it is gone
    have hgone : ((pushed ++ [previous]).filter (!isStale retention previous.timestamp ·)).filter
        (!isStale retention latest.timestamp ·) =
          (pushed ++ [previous]).filter (!isStale retention latest.timestamp ·) := by
      rw [List.filter_filter]
      refine List.filter_congr fun r hr => ?_
      cases hstale : isStale retention previous.timestamp r with
      | true =>
        rw [isStale_iff hprevious (hplain' r hr)] at hstale
        have hstill : isStale retention latest.timestamp r = true :=
          (isStale_iff hlatest (hplain' r hr)).mpr (by omega)
        rw [hstill, Bool.not_true, Bool.false_and]
      | false => rw [Bool.not_false, Bool.and_true]
    rw [readings_pushAll_concat hcovered,
      dropWhile_eq_filter (Ordered.stale_first (hordered.sublist hkept)
        (fun r hr => hplain r (hkept.subset hr)) retention hlatest),
      ih (fun r hr => hcovered r (List.mem_append_left _ hr)) hplain' hbefore,
      List.filter_append (_ : List Reading) [latest], hgone, ← List.filter_append]

/-- A reading of nothing but the time. -/
def readAt (t : Timestamp) : Reading := { timestamp := t }

/-- Readings of a clock that shows a leap second: the last of them is in it, a second and
more behind the one before. -/
def aroundLeapSecond : List Reading := [readAt ⟨59200000000, false⟩, readAt ⟨59400000000, true⟩]

/-- A window need not hold what is fresh where the clock shows a leap second: what lies a
second behind that is older than a second within it, and is not from the next second on. -/
theorem not_readings_of_leapSecond :
    ¬ ∀ (retention : Span) (pushed : List Reading) (latest : Reading),
      (∀ r ∈ pushed ++ [latest], r.timestamp.Covered) →
      ((pushed ++ [latest]).IsChain fun r r' => r.timestamp ≤ r'.timestamp) →
        (({ retention } : Window).pushAll (pushed ++ [latest])).readings =
          (pushed ++ [latest]).filter fun r => latest.timestamp.back retention ≤ r.timestamp := by
  intro h
  have hkept := h (.ofMillis 1000) aroundLeapSecond (readAt ⟨60000000000, false⟩)
    (by decide +kernel) (by decide +kernel)
  exact absurd hkept (by decide +kernel)

end Window

end QuotaWatch
