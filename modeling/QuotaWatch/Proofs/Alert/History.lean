/-
# What the history of a figure calls for

The stage that a check sets off can be told without the detector, from the
values and times of the checks and the stages set off before. At rest the alarm
is raised once the run of high values that reaches the check has lasted for the
timeout; while raised it falls once the run of low values has, and otherwise it
is reported again when the timeout has passed since the last report. Runs count
from the check behind the last raise or fall.

The detector keeps no history, only the time at which the present run began and
that of the last report. `History.Tracks` says what these times are in terms of
the history; a check keeps it (`History.tracks_step`), so a run does.

Key definitions: `History`, `History.Onset`, `History.Calls`, `History.Tracks`.
Key theorems: `History.tracks_step`, `Detector.run_history`.
-/
import Mathlib.Order.Bounds.Basic
import QuotaWatch.Alert.Detector

namespace QuotaWatch

open Time

/-- A row of checks with the stage that each of them set off. -/
structure History where
  time : ℕ → Timestamp
  value : ℕ → Figure
  stage : ℕ → Option Status

namespace History

/-- The stages that turn an alarm on or off. -/
def turns : Set Status := {.raise, .fall}

/-- The stages that tell of an alarm that is on. -/
def reports : Set Status := {.raise, .continues}

variable (h : History)

/-- `i` is the last check before `k` that set off one of some stages. -/
def LastBefore (stages : Set Status) (k i : ℕ) : Prop :=
  IsGreatest {i | i < k ∧ ∃ s ∈ stages, h.stage i = some s} i

/-- Before check `k` the alarm never turned, or it last turned by a fall; `first`
is the first check behind that. -/
def Resting (k first : ℕ) : Prop :=
  (first = 0 ∧ ∀ i < k, ∀ s ∈ turns, h.stage i ≠ some s) ∨
    ∃ i, h.LastBefore turns k i ∧ h.stage i = some .fall ∧ first = i + 1

/-- Before check `k` the alarm last turned by a raise; `first` is the check behind it. -/
def Raised (k first : ℕ) : Prop :=
  ∃ i, h.LastBefore turns k i ∧ h.stage i = some .raise ∧ first = i + 1

/-- `j` is the least check, none before `first`, from which on all values before
check `k` satisfy `p`. -/
def Onset (p : Figure → Prop) (first k j : ℕ) : Prop :=
  IsLeast {j | first ≤ j ∧ ∀ i, j ≤ i → i < k → p (h.value i)} j

/-- The timeout has passed from check `j` to check `k`; where the clock went back
no time has. -/
def Passed (timeout : Span) (j k : ℕ) : Prop :=
  (timeout.nanos : ℤ) ≤ max 0 ((h.time j).between (h.time k))

/-- The values up to check `k`, none before `first`, have satisfied `p` for the timeout. -/
def Dwelt (p : Figure → Prop) (timeout : Span) (first k : ℕ) : Prop :=
  p (h.value k) ∧ ∃ j, h.Onset p first (k + 1) j ∧ h.Passed timeout j k

open Classical in
/-- The stage that the history before check `k`, with its value and time, calls for. -/
inductive Calls (t : Thresholds) (k : ℕ) : Option Status → Prop
  | resting {first : ℕ} : h.Resting k first →
    Calls t k (if h.Dwelt (t.high ≤ ·) t.timeout first k then some .raise else none)
  | raised {first n : ℕ} : h.Raised k first → h.LastBefore reports k n →
    Calls t k
      (if h.Dwelt (· < t.low) t.timeout first k then some .fall
        else if h.Passed t.timeout n k then some .continues
        else none)

variable {h} {t : Thresholds} {k first j i n : ℕ} {p : Figure → Prop} {stages : Set Status}

/-! ### The history tells one stage -/

theorem Resting.not_raised {other : ℕ} (hr : h.Resting k first) : ¬ h.Raised k other := by
  rintro ⟨i, hi, hraise, -⟩
  rcases hr with ⟨-, hnone⟩ | ⟨i', hi', hfall, -⟩
  · exact hnone i hi.1.1 .raise (by simp [turns]) hraise
  · rw [hi.unique hi', hfall] at hraise
    cases hraise

theorem Resting.unique {other : ℕ} (hr : h.Resting k first) (ho : h.Resting k other) :
    first = other := by
  rcases hr with ⟨rfl, hnone⟩ | ⟨i, hi, hfall, rfl⟩ <;>
    rcases ho with ⟨rfl, hnone'⟩ | ⟨i', hi', hfall', rfl⟩
  · rfl
  · exact absurd hfall' (hnone i' hi'.1.1 .fall (by simp [turns]))
  · exact absurd hfall (hnone' i hi.1.1 .fall (by simp [turns]))
  · rw [hi.unique hi']

theorem Raised.unique {other : ℕ} (hr : h.Raised k first) (ho : h.Raised k other) :
    first = other := by
  obtain ⟨i, hi, -, rfl⟩ := hr
  obtain ⟨i', hi', -, rfl⟩ := ho
  rw [hi.unique hi']

/-- At most one stage is called for. -/
theorem Calls.unique {s s' : Option Status} (hs : h.Calls t k s) (hs' : h.Calls t k s') :
    s = s' := by
  cases hs with
  | resting hr =>
    cases hs' with
    | resting hr' => rw [hr.unique hr']
    | raised hr' _ => exact absurd hr' hr.not_raised
  | raised hr hn =>
    cases hs' with
    | resting hr' => exact absurd hr hr'.not_raised
    | raised hr' hn' => rw [hr.unique hr', IsGreatest.unique hn hn']

/-! ### One check more -/

theorem lastBefore_self (stages : Set Status) {s : Status} (hs : h.stage k = some s)
    (hm : s ∈ stages) :
    h.LastBefore stages (k + 1) k :=
  ⟨⟨Nat.lt_succ_self k, s, hm, hs⟩, fun _ hi => Nat.le_of_lt_succ hi.1⟩

theorem LastBefore.succ (hi : h.LastBefore stages k i) (hk : ∀ s ∈ stages, h.stage k ≠ some s) :
    h.LastBefore stages (k + 1) i := by
  refine ⟨⟨Nat.lt_succ_of_lt hi.1.1, hi.1.2⟩, ?_⟩
  rintro i' ⟨hlt, s, hm, hs⟩
  rcases Nat.lt_succ_iff_lt_or_eq.mp hlt with hlt | rfl
  · exact hi.2 ⟨hlt, s, hm, hs⟩
  · exact absurd hs (hk s hm)

theorem Resting.succ (hr : h.Resting k first) (hk : ∀ s ∈ turns, h.stage k ≠ some s) :
    h.Resting (k + 1) first := by
  rcases hr with ⟨rfl, hnone⟩ | ⟨i, hi, hfall, rfl⟩
  · refine Or.inl ⟨rfl, fun i hi => ?_⟩
    rcases Nat.lt_succ_iff_lt_or_eq.mp hi with hi | rfl
    · exact hnone i hi
    · exact hk
  · exact Or.inr ⟨i, hi.succ hk, hfall, rfl⟩

theorem Raised.succ (hr : h.Raised k first) (hk : ∀ s ∈ turns, h.stage k ≠ some s) :
    h.Raised (k + 1) first := by
  obtain ⟨i, hi, hraise, rfl⟩ := hr
  exact ⟨i, hi.succ hk, hraise, rfl⟩

theorem Resting.le (hr : h.Resting k first) : first ≤ k := by
  rcases hr with ⟨rfl, -⟩ | ⟨i, hi, -, rfl⟩
  · exact Nat.zero_le k
  · exact hi.1.1

theorem Raised.le (hr : h.Raised k first) : first ≤ k := by
  obtain ⟨i, hi, -, rfl⟩ := hr
  exact hi.1.1

/-- A run with no value in it. -/
theorem onset_self : h.Onset p k k k :=
  ⟨⟨Nat.le_refl k, fun _ hki hik => absurd hik (Nat.not_lt.mpr hki)⟩, fun _ hj => hj.1⟩

theorem Onset.le (hj : h.Onset p first k j) (hk : first ≤ k) : j ≤ k :=
  hj.2 ⟨hk, fun _ hki hik => absurd hik (Nat.not_lt.mpr hki)⟩

/-- A value that satisfies `p` goes on with the run. -/
theorem Onset.succ (hj : h.Onset p first k j) (hp : p (h.value k)) : h.Onset p first (k + 1) j := by
  refine ⟨⟨hj.1.1, fun i hji hik => ?_⟩, fun j' hj' => ?_⟩
  · rcases Nat.lt_succ_iff_lt_or_eq.mp hik with hik | rfl
    · exact hj.1.2 i hji hik
    · exact hp
  · exact hj.2 ⟨hj'.1, fun i hji hik => hj'.2 i hji (Nat.lt_succ_of_lt hik)⟩

/-- A value that does not satisfy `p` ends the run. -/
theorem onset_of_not (hk : first ≤ k) (hp : ¬ p (h.value k)) :
    h.Onset p first (k + 1) (k + 1) := by
  refine ⟨⟨Nat.le_succ_of_le hk, fun _ hki hik => absurd hik (Nat.not_lt.mpr hki)⟩, ?_⟩
  rintro j ⟨-, hj⟩
  by_contra hlt
  exact hp (hj k (by omega) (Nat.lt_succ_self k))

theorem passed_iff {timeout : Span} :
    h.Passed timeout j k ↔ (h.time j).hasElapsed (h.time k) timeout = true := by
  rw [Passed, Timestamp.hasElapsed, decide_eq_true_eq, Timestamp.elapsed]
  omega

/-- Whether a run has lasted is told by the check at which it began. -/
theorem dwelt_iff (hj : h.Onset p first k j) {timeout : Span} :
    h.Dwelt p timeout first k ↔
      p (h.value k) ∧ (h.time j).hasElapsed (h.time k) timeout = true := by
  refine and_congr_right fun hp => ⟨?_, fun hpass => ⟨j, hj.succ hp, passed_iff.mpr hpass⟩⟩
  rintro ⟨j', hj', hpass⟩
  rw [← (hj.succ hp).unique hj'] at hpass
  exact passed_iff.mp hpass

/-! ### What the detector keeps of the history -/

variable (h) in
/-- The time of check `j`, where it lies before check `k`. -/
def pending (j k : ℕ) : Option Timestamp := if j < k then some (h.time j) else none

variable (h t k) in
/-- What the state of the detector before check `k` says about the history: the
times at which the present run began and at which the last report was made. -/
def Tracks : Detector.State → Prop
  | .normal crossedAt => ∃ first j,
      h.Resting k first ∧ h.Onset (t.high ≤ ·) first k j ∧ crossedAt = h.pending j k
  | .raised lastNotified belowSince => ∃ first j n,
      h.Raised k first ∧ h.Onset (· < t.low) first k j ∧ belowSince = h.pending j k ∧
        h.LastBefore reports k n ∧ lastNotified = h.time n

/-- A run that has not begun begins now. -/
theorem getD_pending (hjk : j ≤ k) : (h.pending j k).getD (h.time k) = h.time j := by
  unfold pending
  split
  · rfl
  · rw [show j = k by omega, Option.getD_none]

theorem pending_self : h.pending k k = none := if_neg (Nat.lt_irrefl k)

theorem pending_succ (hjk : j ≤ k) : h.pending j (k + 1) = some (h.time j) :=
  if_pos (Nat.lt_succ_of_le hjk)

/-- A check at rest does what the history calls for. -/
theorem tracks_checkNormal {crossedAt : Option Timestamp}
    (hs : h.Tracks t k (.normal crossedAt))
    (hk : h.stage k = (Detector.checkNormal t crossedAt (h.time k) (h.value k)).2) :
    h.Calls t k (h.stage k) ∧
      h.Tracks t (k + 1) (Detector.checkNormal t crossedAt (h.time k) (h.value k)).1 := by
  obtain ⟨first, j, hrest, hj, rfl⟩ := hs
  have hle := hj.le hrest.le
  have hcall := Calls.resting (t := t) hrest
  rw [dwelt_iff hj] at hcall
  unfold Detector.checkNormal at hk ⊢
  split at hk
  · -- the value is not high: the run is over
    rename_i hlow
    have hnot : ¬ t.high ≤ h.value k := UInt64.not_le.mpr hlow
    rw [if_neg fun hd => hnot hd.1] at hcall
    rw [if_pos hlow]
    refine ⟨by rwa [hk], first, k + 1, hrest.succ (by simp [hk]), onset_of_not hrest.le hnot, ?_⟩
    exact pending_self.symm
  · rename_i hhigh
    have hp : t.high ≤ h.value k := UInt64.not_lt.mp hhigh
    rw [if_neg hhigh]
    simp only [getD_pending hle] at hk ⊢
    by_cases hpass : (h.time j).hasElapsed (h.time k) t.timeout = true
    · -- the run has lasted: the alarm is raised, and a new run begins
      rw [if_pos hpass] at hk ⊢
      rw [if_pos ⟨hp, hpass⟩] at hcall
      have hturn := lastBefore_self turns hk (by simp [turns])
      have hreport := lastBefore_self reports hk (by simp [reports])
      refine ⟨by rwa [hk], k + 1, k + 1, k, ⟨k, hturn, hk, rfl⟩, onset_self, ?_, hreport, rfl⟩
      exact pending_self.symm
    · -- the run goes on
      rw [if_neg hpass] at hk ⊢
      rw [if_neg fun hd => hpass hd.2] at hcall
      refine ⟨by rwa [hk], first, j, hrest.succ (by simp [hk]), hj.succ hp, ?_⟩
      exact (pending_succ hle).symm

/-- A check of a raised alarm does what the history calls for. -/
theorem tracks_checkRaised {lastNotified : Timestamp} {belowSince : Option Timestamp}
    (hs : h.Tracks t k (.raised lastNotified belowSince))
    (hk : h.stage k =
      (Detector.checkRaised t lastNotified belowSince (h.time k) (h.value k)).2) :
    h.Calls t k (h.stage k) ∧
      h.Tracks t (k + 1)
        (Detector.checkRaised t lastNotified belowSince (h.time k) (h.value k)).1 := by
  obtain ⟨first, j, n, hraised, hj, rfl, hn, rfl⟩ := hs
  have hle := hj.le hraised.le
  have hcall := Calls.raised (t := t) hraised hn
  rw [dwelt_iff hj, passed_iff] at hcall
  -- the run of low values behind this check
  obtain ⟨j', hj', hbelow⟩ : ∃ j', h.Onset (· < t.low) first (k + 1) j' ∧
      (if t.low ≤ h.value k then none else some ((h.pending j k).getD (h.time k))) =
        h.pending j' (k + 1) := by
    by_cases hlow : t.low ≤ h.value k
    · exact ⟨k + 1, onset_of_not hraised.le (UInt64.not_lt.mpr hlow),
        by rw [if_pos hlow, pending_self]⟩
    · exact ⟨j, hj.succ (UInt64.not_le.mp hlow),
        by rw [if_neg hlow, getD_pending hle, pending_succ hle]⟩
  have hfall : (h.pending j' (k + 1)).any (·.hasElapsed (h.time k) t.timeout) = true ↔
      h.value k < t.low ∧ (h.time j).hasElapsed (h.time k) t.timeout = true := by
    rw [← hbelow, ← UInt64.not_le, getD_pending hle]
    by_cases hlow : t.low ≤ h.value k
    · rw [if_pos hlow]
      exact iff_of_false Bool.false_ne_true fun hd => hd.1 hlow
    · rw [if_neg hlow, Option.any_some]
      exact ⟨fun hpass => ⟨hlow, hpass⟩, fun hd => hd.2⟩
  simp only [Detector.checkRaised, hbelow] at hk ⊢
  by_cases hf : h.value k < t.low ∧ (h.time j).hasElapsed (h.time k) t.timeout = true
  · -- the run has lasted: the alarm falls, and a new run begins
    rw [if_pos (hfall.mpr hf)] at hk ⊢
    rw [if_pos hf] at hcall
    have hturn := lastBefore_self turns hk (by simp [turns])
    refine ⟨by rwa [hk], k + 1, k + 1, Or.inr ⟨k, hturn, hk, rfl⟩, onset_self, ?_⟩
    exact pending_self.symm
  · rw [if_neg fun hany => hf (hfall.mp hany)] at hk ⊢
    rw [if_neg hf] at hcall
    by_cases hr : (h.time n).hasElapsed (h.time k) t.timeout = true
    · -- the alarm is reported again
      rw [if_pos hr] at hk hcall ⊢
      have hreport := lastBefore_self reports hk (by simp [reports])
      exact ⟨by rwa [hk], first, j', k, hraised.succ (by simp [hk, turns]), hj', rfl, hreport,
        rfl⟩
    · rw [if_neg hr] at hk hcall ⊢
      exact ⟨by rwa [hk], first, j', n, hraised.succ (by simp [hk]), hj', rfl,
        hn.succ (by simp [hk]), rfl⟩

/-- **A check sets off what the history calls for.** And the state behind it tells
of the history behind it. -/
theorem tracks_step {s : Detector.State} (hs : h.Tracks t k s)
    (hk : h.stage k = (Detector.step t s (h.time k) (h.value k)).2) :
    h.Calls t k (h.stage k) ∧
      h.Tracks t (k + 1) (Detector.step t s (h.time k) (h.value k)).1 := by
  cases s with
  | normal crossedAt => exact tracks_checkNormal hs hk
  | raised lastNotified belowSince => exact tracks_checkRaised hs hk

/-- Before the first check there is nothing to tell. -/
theorem tracks_zero : h.Tracks t 0 (.normal none) :=
  ⟨0, 0, Or.inl ⟨rfl, fun _ hi => absurd hi (Nat.not_lt_zero _)⟩, onset_self, pending_self.symm⟩

/-- The alarm is on where it last turned by a raise. -/
theorem Tracks.isRaised_iff {d : Detector} (hs : h.Tracks t k d.state) :
    d.isRaised = true ↔ ∃ i, h.LastBefore turns k i ∧ h.stage i = some .raise := by
  unfold Detector.isRaised
  cases hstate : d.state with
  | normal crossedAt =>
    rw [hstate] at hs
    obtain ⟨first, j, hrest, -⟩ := hs
    simp only [Bool.false_eq_true, false_iff]
    rintro ⟨i, hi, hraise⟩
    exact hrest.not_raised ⟨i, hi, hraise, rfl⟩
  | raised lastNotified belowSince =>
    rw [hstate] at hs
    obtain ⟨first, j, n, ⟨i, hi, hraise, -⟩, -⟩ := hs
    exact iff_of_true rfl ⟨i, hi, hraise⟩

end History

namespace Detector

variable (d : Detector) (t : Thresholds) (checks : List (Timestamp × Figure))

/-! ### Rows of checks -/

theorem run_append : ∀ (d : Detector) (xs ys : List (Timestamp × Figure)),
    d.run (xs ++ ys) = (((d.run xs).1.run ys).1, (d.run xs).2 ++ ((d.run xs).1.run ys).2)
  | _, [], _ => rfl
  | d, (now, value) :: xs, ys => by
    simp only [List.cons_append, run, run_append (d.check now value).1 xs ys]

@[simp] theorem length_run : ∀ (d : Detector) (xs : List (Timestamp × Figure)),
    (d.run xs).2.length = xs.length
  | _, [] => rfl
  | d, (now, value) :: xs => by simp [run, length_run (d.check now value).1 xs]

@[simp] theorem thresholds_run : ∀ (d : Detector) (xs : List (Timestamp × Figure)),
    (d.run xs).1.thresholds = d.thresholds
  | _, [] => rfl
  | d, (now, value) :: xs => by
    simp only [run, thresholds_run (d.check now value).1 xs, thresholds_check]

/-- One check behind others. -/
theorem run_concat (c : Timestamp × Figure) :
    d.run (checks ++ [c]) =
      (((d.run checks).1.check c.1 c.2).1,
        (d.run checks).2 ++ [((d.run checks).1.check c.1 c.2).2]) := by
  simp only [run_append, run]

variable {checks} in
/-- What a check sets off depends on the checks before it alone. -/
theorem getElem?_run {k : ℕ} (hk : k < checks.length) :
    (d.run checks).2[k]? =
      some ((d.run (checks.take k)).1.check checks[k].1 checks[k].2).2 := by
  have hsplit : checks = checks.take k ++ ([checks[k]] ++ checks.drop (k + 1)) := by simp
  have hlen : (d.run (checks.take k)).2.length = k := by simp [hk.le]
  conv_lhs => rw [hsplit, ← List.append_assoc, run_append, run_concat]
  rw [List.getElem?_append_left (by simp [hlen]), List.getElem?_append_right hlen.le, hlen,
    Nat.sub_self, List.getElem?_cons_zero]

/-- The history of a detector that starts at rest. -/
def history : History where
  time k := (checks.getD k default).1
  value k := (checks.getD k default).2
  stage k := ((({ thresholds := t } : Detector).run checks).2.getD k none).map (·.status)

variable {checks} in
theorem stage_history {k : ℕ} (hk : k < checks.length) :
    (history t checks).stage k =
      (step t (({ thresholds := t } : Detector).run (checks.take k)).1.state
        ((history t checks).time k) ((history t checks).value k)).2 := by
  have hget := getElem?_run { thresholds := t } hk
  simp only [history, List.getD_eq_getElem?_getD, hget, Option.getD_some, check, thresholds_run,
    List.getElem?_eq_getElem hk]
  cases (step t _ _ _).2 <;> rfl

variable {checks} in
/-- An alarm carries the time and the value of its check. -/
theorem getElem?_run_eq_stage {k : ℕ} (hk : k < checks.length) :
    (({ thresholds := t } : Detector).run checks).2[k]? =
      some (((history t checks).stage k).map (⟨checks[k].1, checks[k].2, ·⟩)) := by
  rw [stage_history t hk, getElem?_run _ hk]
  simp only [check, thresholds_run, history, List.getD_eq_getElem?_getD,
    List.getElem?_eq_getElem hk, Option.getD_some]

variable {checks} in
theorem state_run_succ {k : ℕ} (hk : k < checks.length) :
    (({ thresholds := t } : Detector).run (checks.take (k + 1))).1.state =
      (step t (({ thresholds := t } : Detector).run (checks.take k)).1.state
        ((history t checks).time k) ((history t checks).value k)).1 := by
  rw [← List.take_append_getElem hk, run_concat]
  simp only [check, thresholds_run, history, List.getD_eq_getElem?_getD,
    List.getElem?_eq_getElem hk, Option.getD_some]

/-- Before every check the state of the detector tells of its history. -/
theorem tracks_run : ∀ k ≤ checks.length,
    (history t checks).Tracks t k (({ thresholds := t } : Detector).run (checks.take k)).1.state
  | 0, _ => History.tracks_zero
  | k + 1, hk => by
    rw [state_run_succ t hk]
    exact (History.tracks_step (tracks_run k (Nat.le_of_succ_le hk)) (stage_history t hk)).2

/-- **A detector does what the history calls for.** Every check sets off exactly the
stage called for by the values, the times and the stages before it, at its own
time and with its own value; and the alarm is on behind a check exactly where it
last turned by a raise. -/
theorem run_history (t : Thresholds) (checks : List (Timestamp × Figure)) :
    (({ thresholds := t } : Detector).run checks).2.length = checks.length ∧
      ∀ k : Fin checks.length,
        (∀ stage, (history t checks).Calls t k stage ↔
          (({ thresholds := t } : Detector).run checks).2[k.val]? =
            some (stage.map (⟨checks[k].1, checks[k].2, ·⟩))) ∧
        ((({ thresholds := t } : Detector).run (checks.take (k + 1))).1.isRaised = true ↔
          ∃ i, (history t checks).LastBefore History.turns (k + 1) i ∧
            (history t checks).stage i = some .raise) := by
  refine ⟨length_run _ _, fun k => ⟨fun stage => ?_, ?_⟩⟩
  · have htracks := tracks_run t checks k k.isLt.le
    have hcalls := (History.tracks_step htracks (stage_history t k.isLt)).1
    have hinj : Function.Injective (Alarm.mk checks[k].1 checks[k].2) := fun _ _ e => by
      cases e
      rfl
    rw [getElem?_run_eq_stage t k.isLt, Option.some_inj]
    constructor
    · intro hs
      rw [hcalls.unique hs]
      rfl
    · intro hs
      rwa [← Option.map_injective hinj hs]
  · exact (tracks_run t checks (k + 1) k.isLt).isRaised_iff

/-- One check a second: a run of high values that lasts for three seconds raises the
alarm, which is told of every three seconds until the low values have lasted. -/
example :
    let values : List Figure := [50, 91, 79, 92, 93, 94, 95, 94, 79, 91, 92, 93, 94, 32, 91, 92, 93,
      94, 95, 96, 85, 79, 77, 76, 75, 74, 73, 72]
    let checks := values.zipIdx.map fun (value, k) => (Timestamp.ofMicros (k * 1000000), value)
    (({ thresholds := ⟨80, 90, .ofMillis 3000⟩ } : Detector).run checks).2.reduceOption.map
        (fun a => (a.timestamp.nanos / 1000000000, a.value, a.status)) =
      [(6, 95, .raise), (9, 91, .continues), (12, 94, .continues), (15, 92, .continues),
        (18, 95, .continues), (21, 79, .continues), (24, 75, .fall)] := by
  decide +kernel

end Detector

end QuotaWatch
