/-
# Larger values and lower thresholds

Of two detectors with one timeout, take one that is fed with values at least as
large and has thresholds at most as high. It is raised wherever the other one
is, so neither a larger value nor a lower threshold ever hides an alarm.

The two do not turn at the same checks, so their states are compared by what is
pending in them (`State.Under`): at rest the second one has been over its upper
threshold for at least as long, and while both are raised the first one has been
below its lower threshold for at least as long. A check keeps this order
(`State.under_step`), so a run does, unless the clock shows a leap second: a run that begins
in one can be told to have lasted longer than one that began before it
(`not_isRaised_of_leapSecond`).

Key definitions: `NoLater`, `Detector.State.since`, `Detector.State.Under`, `Detector.More`,
`Detector.acrossLeapSecond`.
Key theorems: `Detector.State.under_step`, `Detector.under_run`, `Detector.isRaised_of_run`.
-/
import Mathlib.Data.List.Forall2
import QuotaWatch.Alert.Detector
import QuotaWatch.Proofs.Time.Apart

namespace QuotaWatch

open Time

/-! ### Times at which a run may have begun -/

/-- Wherever the second run has begun the first one has, and no later. -/
def NoLater (since since' : Option Timestamp) : Prop :=
  ∀ t' ∈ since', ∃ t ∈ since, t.Precedes t'

theorem noLater_none (since : Option Timestamp) : NoLater since none := by
  intro t' ht'
  cases ht'

theorem noLater_some {t t' : Timestamp} (h : t.Precedes t') :
    NoLater (some t) (some t') := by
  intro t'' ht''
  cases ht''
  exact ⟨t, rfl, h⟩

/-- A run that has not begun begins now, and no run began behind now. -/
theorem NoLater.getD {since since' : Option Timestamp} {now : Timestamp}
    (h : NoLater since since') (hnow : now.leap = false) (hpast : ∀ t ∈ since, t.Precedes now) :
    (since.getD now).Precedes (since'.getD now) := by
  cases since' with
  | some t' =>
    obtain ⟨t, ht, hle⟩ := h t' rfl
    cases ht
    exact hle
  | none =>
    cases since with
    | some t => exact hpast t rfl
    | none => exact .refl hnow

/-- A length of time that has passed since one moment has passed since every earlier one. -/
theorem Time.Timestamp.hasElapsed_of_le {t t' now : Timestamp} {timeout : Span}
    (hle : t.Precedes t') (hnow : now.leap = false) (h : t'.hasElapsed now timeout = true) :
    t.hasElapsed now timeout = true := by
  rw [hasElapsed, decide_eq_true_eq, elapsed, between_of_plain hle.later hnow] at h
  rw [hasElapsed, decide_eq_true_eq, elapsed, between_of_plain hle.earlier hnow]
  have := hle.le
  omega

namespace Detector

namespace State

/-- The time at which the pending run began, of high values at rest and of low
values while raised. -/
def since : State → Option Timestamp
  | .normal crossedAt => crossedAt
  | .raised _ belowSince => belowSince

/-- The pending run did not begin behind `now`. -/
def Past (s : State) (now : Timestamp) : Prop := ∀ t ∈ s.since, t.Precedes now

/-- The second state is at least as close to an alarm as the first one. -/
def Under : State → State → Prop
  | .normal crossedAt, .normal crossedAt' => NoLater crossedAt' crossedAt
  | .normal _, .raised _ _ => True
  | .raised _ _, .normal _ => False
  | .raised _ belowSince, .raised _ belowSince' => NoLater belowSince belowSince'

/-- Every state is over a state at rest without a pending run. -/
theorem under_of_resting (s : State) : (State.normal none).Under s := by
  cases s with
  | normal crossedAt => exact noLater_none _
  | raised lastNotified belowSince => trivial

/-- A check begins no run but at its own time. -/
theorem since_step (t : Thresholds) (s : State) (now : Timestamp) (value : Figure) :
    (step t s now value).1.since = none ∨
      (step t s now value).1.since = some (s.since.getD now) := by
  cases s with
  | normal crossedAt =>
    rw [step]
    rcases checkNormal_cases t crossedAt now value with ⟨-, he⟩ | ⟨-, -, he⟩ | ⟨-, -, he⟩
    · rw [he]
      exact Or.inl rfl
    · rw [he]
      exact Or.inl rfl
    · rw [he]
      exact Or.inr rfl
  | raised lastNotified belowSince =>
    rw [step]
    rcases checkRaised_cases t lastNotified belowSince now value with
      ⟨-, -, he⟩ | ⟨below, hbelow, he⟩ <;> rw [he]
    · exact Or.inl rfl
    · rcases hbelow with ⟨-, rfl⟩ | ⟨-, -, rfl⟩
      · exact Or.inl (by split <;> rfl)
      · exact Or.inr (by split <;> rfl)

theorem past_step {t : Thresholds} {s : State} {now : Timestamp} {value : Figure}
    (hnow : now.leap = false) (h : s.Past now) : (step t s now value).1.Past now := by
  intro moment hmoment
  rcases since_step t s now value with hnone | hsome
  · rw [hnone] at hmoment
    cases hmoment
  · rw [hsome] at hmoment
    cases hmoment
    cases hs : s.since with
    | none => exact .refl hnow
    | some moment => exact h moment hs

/-! ### One check of both -/

section Step

variable {t t' : Thresholds} {now : Timestamp} {value value' : Figure}
  (htimeout : t'.timeout = t.timeout) (hapart : t.low < t.high) (hlow : t'.low ≤ t.low)
  (hhigh : t'.high ≤ t.high) (hvalue : value ≤ value') (hnow : now.leap = false)

include htimeout hhigh hvalue hnow in
/-- Both at rest: where the first one is raised the second one is. -/
theorem under_normal {crossedAt crossedAt' : Option Timestamp}
    (h : NoLater crossedAt' crossedAt) (hpast : ∀ t ∈ crossedAt', t.Precedes now) :
    (checkNormal t crossedAt now value).1.Under (checkNormal t' crossedAt' now value').1 := by
  have hover : t.high ≤ value → ¬ value' < t'.high := fun hv =>
    UInt64.not_lt.mpr (UInt64.le_trans hhigh (UInt64.le_trans hv hvalue))
  have hle : (crossedAt'.getD now).Precedes (crossedAt.getD now) := h.getD hnow hpast
  rcases checkNormal_cases t crossedAt now value with ⟨-, he⟩ | ⟨hv, hpassed, he⟩ | ⟨hv, -, he⟩
  · rw [he]
    exact under_of_resting _
  · have hpassed' : (crossedAt'.getD now).hasElapsed now t'.timeout = true := by
      rw [htimeout]
      exact Timestamp.hasElapsed_of_le hle hnow hpassed
    rcases checkNormal_cases t' crossedAt' now value' with
      ⟨hv', -⟩ | ⟨-, -, he'⟩ | ⟨-, hnot, -⟩
    · exact absurd hv' (hover hv)
    · rw [he, he']
      exact noLater_none _
    · rw [hpassed'] at hnot
      cases hnot
  · rcases checkNormal_cases t' crossedAt' now value' with
      ⟨hv', -⟩ | ⟨-, -, he'⟩ | ⟨-, -, he'⟩
    · exact absurd hv' (hover hv)
    · rw [he, he']
      trivial
    · rw [he, he']
      exact noLater_some hle

include hapart hlow hvalue in
/-- The first one at rest, the second one raised: where the second one falls no run of
the first one is pending. -/
theorem under_mixed (crossedAt belowSince' : Option Timestamp) (lastNotified' : Timestamp) :
    (checkNormal t crossedAt now value).1.Under
      (checkRaised t' lastNotified' belowSince' now value').1 := by
  have hlower : value' < t'.low → value < t.high := fun hv =>
    UInt64.lt_trans (UInt64.lt_of_lt_of_le (UInt64.lt_of_le_of_lt hvalue hv) hlow) hapart
  rcases checkNormal_cases t crossedAt now value with ⟨-, he⟩ | ⟨hv, -, he⟩ | ⟨hv, -, he⟩
  · rw [he]
    exact under_of_resting _
  · rcases checkRaised_cases t' lastNotified' belowSince' now value' with
      ⟨hv', -, -⟩ | ⟨below, hbelow, he'⟩
    · exact absurd (hlower hv') (UInt64.not_lt.mpr hv)
    · rcases hbelow with ⟨-, rfl⟩ | ⟨hv', -, -⟩
      · rw [he, he']
        split <;> exact noLater_none _
      · exact absurd (hlower hv') (UInt64.not_lt.mpr hv)
  · rcases checkRaised_cases t' lastNotified' belowSince' now value' with
      ⟨hv', -, -⟩ | ⟨below, -, he'⟩
    · exact absurd (hlower hv') (UInt64.not_lt.mpr hv)
    · rw [he, he']
      split <;> trivial

include htimeout hlow hvalue hnow in
/-- Both raised: where the second one falls the first one does. -/
theorem under_raised {belowSince belowSince' : Option Timestamp}
    (lastNotified lastNotified' : Timestamp) (h : NoLater belowSince belowSince')
    (hpast : ∀ t ∈ belowSince, t.Precedes now) :
    (checkRaised t lastNotified belowSince now value).1.Under
      (checkRaised t' lastNotified' belowSince' now value').1 := by
  have hunder : value' < t'.low → ¬ t.low ≤ value := fun hv =>
    UInt64.not_le.mpr (UInt64.lt_of_lt_of_le (UInt64.lt_of_le_of_lt hvalue hv) hlow)
  have hle : (belowSince.getD now).Precedes (belowSince'.getD now) := h.getD hnow hpast
  rcases checkRaised_cases t lastNotified belowSince now value with
    ⟨-, -, he⟩ | ⟨below, hbelow, he⟩
  · rw [he]
    exact under_of_resting _
  · rcases checkRaised_cases t' lastNotified' belowSince' now value' with
      ⟨hv', hpassed', -⟩ | ⟨below', hbelow', he'⟩
    · -- the first one has been below its threshold for at least as long
      rw [htimeout] at hpassed'
      rcases hbelow with ⟨hv, -⟩ | ⟨-, hnot, -⟩
      · exact absurd hv (hunder hv')
      · rw [Timestamp.hasElapsed_of_le hle hnow hpassed'] at hnot
        cases hnot
    · have hruns : NoLater below below' := by
        rcases hbelow' with ⟨-, rfl⟩ | ⟨hv', -, rfl⟩
        · exact noLater_none _
        · rcases hbelow with ⟨hv, -⟩ | ⟨-, -, rfl⟩
          · exact absurd hv (hunder hv')
          · exact noLater_some hle
      rw [he, he']
      split <;> split <;> exact hruns

include htimeout hapart hlow hhigh hvalue hnow in
/-- **A check keeps the order of the two states**, if no pending run began behind it. -/
theorem under_step {s s' : State} (h : s.Under s') (hpast : s.Past now) (hpast' : s'.Past now) :
    (step t s now value).1.Under (step t' s' now value').1 := by
  cases s with
  | normal crossedAt =>
    cases s' with
    | normal crossedAt' => exact under_normal htimeout hhigh hvalue hnow h hpast'
    | raised lastNotified' belowSince' => exact under_mixed hapart hlow hvalue _ _ _
  | raised lastNotified belowSince =>
    cases s' with
    | normal crossedAt' => exact h.elim
    | raised lastNotified' belowSince' => exact under_raised htimeout hlow hvalue hnow _ _ h hpast

end Step

end State

/-! ### Runs of both -/

/-- A check at the same time with a value at least as large. -/
def More (check check' : Timestamp × Figure) : Prop :=
  check'.1 = check.1 ∧ check.2 ≤ check'.2

/-- What is raised has only raised states over it. -/
theorem isRaised_of_under {d d' : Detector} (h : d.state.Under d'.state)
    (hd : d.isRaised = true) : d'.isRaised = true := by
  unfold isRaised at hd ⊢
  cases hs : d.state with
  | normal crossedAt => simp [hs] at hd
  | raised lastNotified belowSince =>
    cases hs' : d'.state with
    | normal crossedAt' =>
      rw [hs, hs'] at h
      exact h.elim
    | raised lastNotified' belowSince' => rfl

/-- **A run keeps the order of the two states**, if the clock does not go back and shows no
leap second. -/
theorem under_run {t t' : Thresholds} (htimeout : t'.timeout = t.timeout)
    (hapart : t.low < t.high) (hlow : t'.low ≤ t.low) (hhigh : t'.high ≤ t.high)
    {checks checks' : List (Timestamp × Figure)} (hmore : List.Forall₂ More checks checks')
    (hplain : ∀ c ∈ checks, c.1.leap = false)
    (htimes : checks.Pairwise fun c c' => c.1.nanos ≤ c'.1.nanos) {s s' : State}
    (hunder : s.Under s') (hpast : ∀ c ∈ checks, s.Past c.1 ∧ s'.Past c.1) :
    (({ thresholds := t, state := s } : Detector).run checks).1.state.Under
      (({ thresholds := t', state := s' } : Detector).run checks').1.state := by
  induction hmore generalizing s s' with
  | nil => exact hunder
  | @cons check check' checks checks' hhead _ ih =>
    obtain ⟨now, value⟩ := check
    obtain ⟨now', value'⟩ := check'
    obtain ⟨rfl, hvalue⟩ : now' = now ∧ value ≤ value' := hhead
    obtain ⟨hfirst, hrest⟩ := List.pairwise_cons.mp htimes
    obtain ⟨hnow, hplain⟩ := List.forall_mem_cons.mp hplain
    obtain ⟨hp, hp'⟩ := hpast _ List.mem_cons_self
    refine ih hplain hrest (State.under_step htimeout hapart hlow hhigh hvalue hnow hunder hp hp') ?_
    intro c hc
    have hlater : now'.Precedes c.1 := ⟨hnow, hplain c hc, hfirst c hc⟩
    exact ⟨fun moment hm => (State.past_step hnow hp moment hm).trans hlater,
      fun moment hm => (State.past_step hnow hp' moment hm).trans hlater⟩

/-- **Larger values and lower thresholds hide no alarm.** Of two detectors with one
timeout that are checked at the same times, the clock never going back and showing no leap
second, the one with the larger values and the lower thresholds is raised behind every check
behind which the other one is. -/
theorem isRaised_of_run {t t' : Thresholds} (htimeout : t'.timeout = t.timeout)
    (hapart : t.low < t.high) (hlow : t'.low ≤ t.low) (hhigh : t'.high ≤ t.high)
    {checks checks' : List (Timestamp × Figure)} (hmore : List.Forall₂ More checks checks')
    (hplain : ∀ c ∈ checks, c.1.leap = false)
    (htimes : checks.Pairwise fun c c' => c.1.nanos ≤ c'.1.nanos) (k : ℕ)
    (hraised : (({ thresholds := t } : Detector).run (checks.take k)).1.isRaised = true) :
    (({ thresholds := t' } : Detector).run (checks'.take k)).1.isRaised = true := by
  refine isRaised_of_under ?_ hraised
  refine under_run htimeout hapart hlow hhigh (List.forall₂_take k hmore)
    (fun c hc => hplain c (List.mem_of_mem_take hc))
    (htimes.sublist (List.take_sublist k checks)) (noLater_none none) ?_
  intro c _
  exact ⟨fun _ hm => absurd hm (Option.not_mem_none _),
    fun _ hm => absurd hm (Option.not_mem_none _)⟩

/-- Checks once a second. -/
def everySecond (values : List Figure) : List (Timestamp × Figure) :=
  values.zipIdx.map fun (value, k) => (Timestamp.ofMicros (k * 1000000), value)

/-- Two detectors that turn at different checks: the second one is raised first and is
still raised where the first one has fallen. -/
theorem isRaised_of_run_apart :
    let d : Detector := { thresholds := ⟨80, 90, .ofMillis 2000⟩ }
    let d' : Detector := { thresholds := ⟨60, 85, .ofMillis 2000⟩ }
    let checks := everySecond [50, 90, 95, 95, 70, 70, 70, 50]
    let checks' := everySecond [85, 90, 95, 99, 70, 80, 70, 55]
    (d.run (checks.take 3)).1.isRaised = false ∧ (d'.run (checks'.take 3)).1.isRaised = true ∧
      (d.run (checks.take 4)).1.isRaised = true ∧ (d'.run (checks'.take 4)).1.isRaised = true ∧
      (d.run checks).1.isRaised = false ∧ (d'.run checks').1.isRaised = true := by
  intro d d' checks checks'
  have hmore : List.Forall₂ More checks checks' := by
    simp only [checks, checks', everySecond, List.zipIdx_cons, List.zipIdx_nil, List.map_cons,
      List.map_nil, List.forall₂_cons, List.forall₂_nil_left_iff, More]
    decide
  have hplain : ∀ c ∈ checks, c.1.leap = false := by decide +kernel
  have htimes : checks.Pairwise fun c c' => c.1.nanos ≤ c'.1.nanos := by decide +kernel
  have hraised : (d.run (checks.take 4)).1.isRaised = true := by decide +kernel
  exact ⟨by decide +kernel, by decide +kernel, hraised,
    isRaised_of_run (by rfl) (by decide) (by decide) (by decide) hmore hplain htimes 4 hraised,
    by decide +kernel, by decide +kernel⟩

/-- Checks half a second before a leap second, in it, and a second behind that: the first
check and the last are less than a second apart. -/
def acrossLeapSecond (values : List Figure) : List (Timestamp × Figure) :=
  [⟨59500000000, false⟩, ⟨59400000000, true⟩, ⟨60400000000, false⟩].zip values

/-- A larger value can hide an alarm where the clock shows a leap second: the run that it
begins earlier has lasted for less time than the one that begins in the leap second. -/
theorem not_isRaised_of_leapSecond :
    ¬ ∀ (t : Thresholds) (checks checks' : List (Timestamp × Figure)), t.low < t.high →
      List.Forall₂ More checks checks' → (checks.Pairwise fun c c' => c.1 ≤ c'.1) →
      (({ thresholds := t } : Detector).run checks).1.isRaised = true →
        (({ thresholds := t } : Detector).run checks').1.isRaised = true := by
  intro h
  have hmore : List.Forall₂ More (acrossLeapSecond [0, 95, 95])
      (acrossLeapSecond [95, 95, 95]) := by
    simp only [acrossLeapSecond, List.zip_cons_cons, List.zip_nil_left, List.forall₂_cons,
      List.forall₂_nil_left_iff, More]
    decide
  have hraised := h ⟨80, 90, .ofMillis 1000⟩ (acrossLeapSecond [0, 95, 95])
    (acrossLeapSecond [95, 95, 95]) (by decide) hmore (by decide +kernel) (by decide +kernel)
  exact absurd hraised (by decide +kernel)

end Detector

end QuotaWatch
