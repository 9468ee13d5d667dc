/-
# How often an alarm turns

A raise and a fall turn an alarm, a report in between does not. The stages that a
run sets off come in cycles: a raise, reports, a fall (`Status.cycle`). Two turns in a row
are at least the dwell time apart, and so are a raise and the reports behind it,
each from the one before. So a stretch of time has room for only so many turns.

No check compares its time with that of the last turn. It follows from what the
state keeps (`Detector.Paced`): the pending run began no earlier than the alarm
turned, and a raised state holds the time of the latest alarm. A check keeps this
if the clock does not go back and shows no leap second (`Detector.Paced.step`), so a run
does. In a leap second the dwell time can pass sooner than it passes for the turn before
(`Detector.not_behind_of_leapSecond`).

Key definitions: `Status.cycle`, `turnsOf`, `Detector.alarms`, `Detector.Paced`.
Key theorems: `Detector.Paced.step`, `Detector.paced_run`, `Detector.turns_of_run`.
-/
import Mathlib.Computability.Language
import Mathlib.Data.List.ReduceOption
import QuotaWatch.Proofs.Alert.History
import QuotaWatch.Proofs.Alert.Monotone
import QuotaWatch.Proofs.Time.Apart

namespace QuotaWatch

open Time
open scoped Computability

/-! ### Stages -/

/-- Whether a stage turns an alarm on or off. -/
def Status.turns : Status → Bool
  | .raise | .fall => true
  | .continues => false

/-- The alarms that turn. -/
def turnsOf (alarms : List Alarm) : List Alarm := alarms.filter (·.status.turns)

/-- An alarm that is on: raised, and reported again any number of times. -/
def Status.ongoing : Language Status := {[.raise]} * {[.continues]}∗

/-- An alarm from its raise to its fall. -/
def Status.cycle : Language Status := ongoing * {[.fall]}

theorem mem_kstar_concat {α : Type} {l : Language α} {w v : List α} (hw : w ∈ l∗) (hv : v ∈ l) :
    w ++ v ∈ l∗ :=
  (kstar_mul_le_kstar : l∗ * l ≤ l∗) (Language.append_mem_mul hw hv)

theorem Time.Timestamp.add_le_of_hasElapsed {last since now : Timestamp} {timeout : Span}
    (hlast : last.Precedes since) (hnow : last.Precedes now)
    (h : since.hasElapsed now timeout = true) : last.nanos + timeout.nanos ≤ now.nanos := by
  rw [hasElapsed, decide_eq_true_eq, elapsed, between_of_plain hlast.later hnow.later] at h
  have := hlast.le
  have := hnow.le
  omega

namespace Detector

/-- The stages that a detector can have set off when it is in a state. -/
def State.words : State → Language Status
  | .normal _ => Status.cycle∗
  | .raised _ _ => Status.cycle∗ * Status.ongoing

theorem State.words_raise {w : List Status} (hw : w ∈ Status.cycle∗) :
    w ++ [.raise] ∈ Status.cycle∗ * Status.ongoing := by
  have hraise : [Status.raise] ∈ Status.ongoing :=
    Language.append_mem_mul (Set.mem_singleton _) (Language.nil_mem_kstar _)
  exact Language.append_mem_mul hw hraise

theorem State.words_continues {w : List Status} (hw : w ∈ Status.cycle∗ * Status.ongoing) :
    w ++ [.continues] ∈ Status.cycle∗ * Status.ongoing := by
  obtain ⟨cycles, hcycles, current, hcurrent, rfl⟩ := Language.mem_mul.mp hw
  obtain ⟨raise, hraise, reports, hreports, rfl⟩ := Language.mem_mul.mp hcurrent
  rw [List.append_assoc, List.append_assoc]
  have hmore : reports ++ [Status.continues] ∈ ({[.continues]}∗ : Language Status) :=
    mem_kstar_concat hreports (Set.mem_singleton _)
  exact Language.append_mem_mul hcycles (Language.append_mem_mul hraise hmore)

theorem State.words_fall {w : List Status} (hw : w ∈ Status.cycle∗ * Status.ongoing) :
    w ++ [.fall] ∈ Status.cycle∗ := by
  obtain ⟨cycles, hcycles, current, hcurrent, rfl⟩ := Language.mem_mul.mp hw
  rw [List.append_assoc]
  exact mem_kstar_concat hcycles (Language.append_mem_mul hcurrent (Set.mem_singleton _))

/-- What a raised alarm has set off is the beginning of whole cycles. -/
theorem State.exists_cycles {w : List Status} (s : State) (hw : w ∈ s.words) :
    ∃ cycles ∈ Status.cycle∗, w <+: cycles := by
  cases s with
  | normal crossedAt => exact ⟨w, hw, List.prefix_refl w⟩
  | raised lastNotified belowSince =>
    exact ⟨w ++ [.fall], State.words_fall hw, List.prefix_append w [.fall]⟩

/-! ### One check -/

/-- The second alarm lies the dwell time behind the first one. -/
def Behind (timeout : Span) (a b : Alarm) : Prop :=
  a.timestamp.nanos + timeout.nanos ≤ b.timestamp.nanos

/-- What the alarms set off so far have to do with the state behind them. -/
structure Paced (t : Thresholds) (alarms : List Alarm) (s : State) : Prop where
  word : alarms.map (·.status) ∈ s.words
  turns : (turnsOf alarms).IsChain (Behind t.timeout)
  reports : alarms.IsChain fun a b => b.status = .continues → Behind t.timeout a b
  /-- The pending run began no earlier than the alarm turned. -/
  since : ∀ moment ∈ s.since, ∀ a ∈ (turnsOf alarms).getLast?, a.timestamp.Precedes moment
  /-- A raised state holds the time of the latest alarm. -/
  notified : ∀ lastNotified belowSince, s = .raised lastNotified belowSince →
    ∀ a ∈ alarms.getLast?, a.timestamp = lastNotified

namespace Paced

variable {t : Thresholds} {alarms : List Alarm} {s : State} {now : Timestamp} {value : Figure}

theorem nil (t : Thresholds) : Paced t [] (.normal none) where
  word := Language.nil_mem_kstar _
  turns := List.isChain_nil
  reports := List.isChain_nil
  since := fun _ hmoment => absurd hmoment (Option.not_mem_none _)
  notified := fun _ _ hs => by cases hs

theorem turnsOf_concat (alarms : List Alarm) (a : Alarm) :
    turnsOf (alarms ++ [a]) = turnsOf alarms ++ if a.status.turns then [a] else [] := by
  rw [turnsOf, List.filter_append, turnsOf]
  cases h : a.status.turns <;> simp [h]

variable (h : Paced t alarms s) (hpast : ∀ a ∈ alarms, a.timestamp.Precedes now)
include h hpast

/-- The run that a check goes on with, or begins, began no earlier than the alarm turned. -/
theorem turn_le_since : ∀ a ∈ (turnsOf alarms).getLast?,
    a.timestamp.Precedes (s.since.getD now) := by
  intro a ha
  cases hsince : s.since with
  | none => exact hpast a (List.mem_of_mem_filter (List.mem_of_getLast? ha))
  | some moment => exact h.since moment hsince a ha

/-- A check that sets off nothing may begin a run, go on with it or end it. -/
theorem quiet {s' : State} (hword : s'.words = s.words)
    (hsince : s'.since = none ∨ s'.since = some (s.since.getD now))
    (hnotified : ∀ n b', s' = .raised n b' → ∃ b, s = .raised n b) : Paced t alarms s' := by
  refine ⟨hword ▸ h.word, h.turns, h.reports, fun moment hmoment => ?_, fun n b' hs => ?_⟩
  · rcases hsince with hnone | hsome
    · rw [hnone] at hmoment
      cases hmoment
    · rw [hsome] at hmoment
      cases hmoment
      exact h.turn_le_since hpast
  · obtain ⟨b, hs⟩ := hnotified n b' hs
    exact h.notified n b hs

/-- A check that turns the alarm comes the dwell time behind the turn before it. -/
theorem turn {s' : State} {status : Status} (hturns : status.turns = true)
    (hword : alarms.map (·.status) ++ [status] ∈ s'.words)
    (hpassed : (s.since.getD now).hasElapsed now t.timeout = true) (hsince : s'.since = none)
    (hnotified : ∀ n b, s' = .raised n b → now = n) :
    Paced t (alarms ++ [⟨now, value, status⟩]) s' := by
  have hlast : ∀ a ∈ (turnsOf alarms).getLast?, Behind t.timeout a ⟨now, value, status⟩ := by
    intro a ha
    have hnow : a.timestamp.Precedes now :=
      hpast a (List.mem_of_mem_filter (List.mem_of_getLast? ha))
    exact Timestamp.add_le_of_hasElapsed (h.turn_le_since hpast a ha) hnow hpassed
  constructor
  · rwa [List.map_append]
  · rw [turnsOf_concat, if_pos hturns]
    refine h.turns.append (List.isChain_singleton _) fun a ha b hb => ?_
    cases hb
    exact hlast a ha
  · refine h.reports.append (List.isChain_singleton _) fun a _ b hb hstatus => ?_
    cases hb
    rw [show status = .continues from hstatus] at hturns
    cases hturns
  · intro moment hmoment
    rw [hsince] at hmoment
    cases hmoment
  · intro n b hs a ha
    rw [List.getLast?_concat] at ha
    cases ha
    exact hnotified n b hs

/-- A report comes the dwell time behind the alarm before it. -/
theorem report {lastNotified : Timestamp} {belowSince below : Option Timestamp}
    (hs : s = .raised lastNotified belowSince)
    (hpassed : lastNotified.hasElapsed now t.timeout = true)
    (hbelow : below = none ∨ below = some (belowSince.getD now)) :
    Paced t (alarms ++ [⟨now, value, .continues⟩]) (.raised now below) := by
  have hlast : ∀ a ∈ alarms.getLast?, Behind t.timeout a ⟨now, value, .continues⟩ := by
    intro a ha
    have hnotified : a.timestamp = lastNotified := h.notified lastNotified belowSince hs a ha
    have hnow : a.timestamp.Precedes now := hpast a (List.mem_of_getLast? ha)
    rw [← hnotified] at hpassed
    exact Timestamp.add_le_of_hasElapsed (.refl hnow.earlier) hnow hpassed
  have hturns : turnsOf (alarms ++ [⟨now, value, .continues⟩]) = turnsOf alarms := by
    rw [turnsOf_concat, if_neg (by exact Bool.false_ne_true), List.append_nil]
  have hword := h.word
  rw [hs] at hword
  constructor
  · rw [List.map_append]
    exact State.words_continues hword
  · rw [hturns]
    exact h.turns
  · refine h.reports.append (List.isChain_singleton _) fun a ha b hb _ => ?_
    cases hb
    exact hlast a ha
  · rw [hturns]
    intro moment hmoment
    have hsome : moment = s.since.getD now := by
      rcases hbelow with rfl | rfl
      · cases hmoment
      · cases hmoment
        rw [hs]
        rfl
    rw [hsome]
    exact h.turn_le_since hpast
  · intro n b he a ha
    rw [List.getLast?_concat] at ha
    cases ha
    cases he
    rfl

/-- **A check keeps the pace**, if the clock did not go back. -/
theorem step (value : Figure) :
    Paced t (alarms ++ ((step t s now value).2.map (⟨now, value, ·⟩)).toList)
      (step t s now value).1 := by
  cases hs : s with
  | normal crossedAt =>
    have hword := h.word
    rw [hs] at hword
    rw [Detector.step]
    rcases checkNormal_cases t crossedAt now value with
      ⟨-, he⟩ | ⟨-, hpassed, he⟩ | ⟨-, -, he⟩ <;> rw [he]
    · rw [Option.map_none, Option.toList_none, List.append_nil]
      exact h.quiet hpast (hs ▸ rfl) (Or.inl rfl) fun n b he => by cases he
    · refine h.turn hpast rfl (State.words_raise hword) (hs ▸ hpassed) rfl fun n b he => ?_
      cases he
      rfl
    · rw [Option.map_none, Option.toList_none, List.append_nil]
      exact h.quiet hpast (hs ▸ rfl) (Or.inr (hs ▸ rfl)) fun n b he => by cases he
  | raised lastNotified belowSince =>
    have hword := h.word
    rw [hs] at hword
    rw [Detector.step]
    rcases checkRaised_cases t lastNotified belowSince now value with
      ⟨-, hpassed, he⟩ | ⟨below, hbelow, he⟩
    · rw [he]
      exact h.turn hpast rfl (State.words_fall hword) (hs ▸ hpassed) rfl fun n b he => by cases he
    · have hrun : below = none ∨ below = some (belowSince.getD now) := by
        rcases hbelow with ⟨-, rfl⟩ | ⟨-, -, rfl⟩
        · exact Or.inl rfl
        · exact Or.inr rfl
      rw [he]
      by_cases hpassed : lastNotified.hasElapsed now t.timeout = true
      · rw [if_pos hpassed]
        exact h.report hpast hs hpassed hrun
      · rw [if_neg hpassed, Option.map_none, Option.toList_none, List.append_nil]
        refine h.quiet hpast (hs ▸ rfl) (hs ▸ hrun) fun n b' he => ?_
        cases he
        exact ⟨belowSince, hs⟩

end Paced

/-! ### Runs -/

/-- The alarms that a detector sets off which starts at rest. -/
def alarms (t : Thresholds) (checks : List (Timestamp × Figure)) : List Alarm :=
  (({ thresholds := t } : Detector).run checks).2.reduceOption

theorem alarms_concat (t : Thresholds) (checks : List (Timestamp × Figure))
    (c : Timestamp × Figure) :
    alarms t (checks ++ [c]) = alarms t checks ++
      ((({ thresholds := t } : Detector).run checks).1.check c.1 c.2).2.toList := by
  rw [alarms, run_concat, List.reduceOption_append, List.reduceOption_singleton, alarms]

/-- An alarm has the time of a check. -/
theorem mem_alarms {t : Thresholds} {checks : List (Timestamp × Figure)} {a : Alarm}
    (h : a ∈ alarms t checks) : ∃ c ∈ checks, c.1 = a.timestamp := by
  induction checks using List.reverseRecOn with
  | nil => cases h
  | append_singleton checks c ih =>
    rw [alarms_concat] at h
    rcases List.mem_append.mp h with h | h
    · obtain ⟨c', hc', htime⟩ := ih h
      exact ⟨c', List.mem_append_left _ hc', htime⟩
    · have htime := (mem_check (Option.mem_toList.mp h)).1
      exact ⟨c, List.mem_append_right _ List.mem_cons_self, htime.symm⟩

/-- **A run keeps the pace**, if the clock does not go back and shows no leap second. -/
theorem paced_run (t : Thresholds) {checks : List (Timestamp × Figure)}
    (hplain : ∀ c ∈ checks, c.1.leap = false)
    (htimes : checks.Pairwise fun c c' => c.1.nanos ≤ c'.1.nanos) :
    Paced t (alarms t checks) (({ thresholds := t } : Detector).run checks).1.state := by
  induction checks using List.reverseRecOn with
  | nil => exact Paced.nil t
  | append_singleton checks c ih =>
    obtain ⟨hbefore, -, hlast⟩ := List.pairwise_append.mp htimes
    obtain ⟨hplain, hnow⟩ := List.forall_mem_append.mp hplain
    have hpast : ∀ a ∈ alarms t checks, a.timestamp.Precedes c.1 := by
      intro a ha
      obtain ⟨c', hc', htime⟩ := mem_alarms ha
      rw [← htime]
      exact ⟨hplain c' hc', hnow c List.mem_cons_self, hlast c' hc' c List.mem_cons_self⟩
    have hstep := (ih hplain hbefore).step hpast c.2
    rw [alarms_concat, run_concat, check, thresholds_run]
    exact hstep

/-- A check sets off at most one alarm, at its own time and with its own value. -/
theorem alarm_of_check {d : Detector} {checks : List (Timestamp × Figure)} {k : ℕ} {a : Alarm}
    (h : (d.run checks).2[k]? = some (some a)) :
    ∃ c, checks[k]? = some c ∧ a.timestamp = c.1 ∧ a.value = c.2 := by
  have hk : k < checks.length := by
    have hlt := (List.getElem?_eq_some_iff.mp h).1
    rwa [length_run] at hlt
  rw [getElem?_run d hk, Option.some_inj] at h
  exact ⟨checks[k], List.getElem?_eq_getElem hk, mem_check h⟩

/-- Turns of an alarm in a stretch of time. -/
def turnsWithin (alarms : List Alarm) (start : Timestamp) (stretch : Span) : List Alarm :=
  (turnsOf alarms).filter fun a =>
    start.nanos ≤ a.timestamp.nanos ∧ a.timestamp.nanos ≤ start.nanos + stretch.nanos

theorem length_turnsWithin_le {timeout : Span} {alarms : List Alarm} (hpos : 0 < timeout.nanos)
    (h : (turnsOf alarms).IsChain (Behind timeout)) (start : Timestamp) (stretch : Span) :
    (turnsWithin alarms start stretch).length ≤ stretch.nanos / timeout.nanos + 1 := by
  have hapart : Apart (·.timestamp.nanos) timeout (turnsOf alarms) := apart_of_isChain h
  have hwithin : ∀ a ∈ turnsWithin alarms start stretch,
      start.nanos + stretch.nanos - stretch.nanos ≤ a.timestamp.nanos ∧
        a.timestamp.nanos ≤ start.nanos + stretch.nanos := by
    intro a ha
    obtain ⟨hfirst, hlast⟩ := of_decide_eq_true (List.mem_filter.mp ha).2
    exact ⟨by omega, hlast⟩
  exact length_le_of_apart hpos (hapart.sublist List.filter_sublist) hwithin

/-- **An alarm does not flap.** Where the clock does not go back and shows no leap second a
check sets off at most one alarm, and the alarms come in cycles of a raise, reports and a
fall, of which the last one may be going on. Two turns in a row lie the dwell time apart,
and every report lies the dwell time behind the raise or the report before it. So a stretch
of time has no more turns than dwell times, and one. -/
theorem turns_of_run (t : Thresholds) {checks : List (Timestamp × Figure)}
    (hplain : ∀ c ∈ checks, c.1.leap = false)
    (htimes : checks.Pairwise fun c c' => c.1.nanos ≤ c'.1.nanos) :
    (∀ (k : ℕ) (a : Alarm), (({ thresholds := t } : Detector).run checks).2[k]? = some (some a) →
        ∃ c, checks[k]? = some c ∧ a.timestamp = c.1 ∧ a.value = c.2) ∧
      (∃ cycles ∈ Status.cycle∗, (alarms t checks).map (·.status) <+: cycles) ∧
      (turnsOf (alarms t checks)).IsChain (Behind t.timeout) ∧
      (alarms t checks).IsChain (fun a b => b.status = .continues → Behind t.timeout a b) ∧
      (0 < t.timeout.nanos → ∀ (start : Timestamp) (stretch : Span),
        (turnsWithin (alarms t checks) start stretch).length ≤
          stretch.nanos / t.timeout.nanos + 1) := by
  have hpaced := paced_run t hplain htimes
  have hcycles := State.exists_cycles _ hpaced.word
  exact ⟨fun _ _ => alarm_of_check, hcycles, hpaced.turns, hpaced.reports,
    fun hpos start stretch => length_turnsWithin_le hpos hpaced.turns start stretch⟩

/-- An alarm that is raised, reported, falls and is raised again: in eight seconds there
are no more than five turns. -/
theorem turns_of_run_again :
    let t : Thresholds := ⟨80, 90, .ofMillis 2000⟩
    let checks := everySecond [95, 95, 95, 95, 95, 70, 70, 70, 95, 95, 95]
    let start : Timestamp := .ofMicros 2000000
    (∀ c ∈ checks, c.1.leap = false) ∧ checks.Pairwise (fun c c' => c.1.nanos ≤ c'.1.nanos) ∧
      0 < t.timeout.nanos ∧
      (alarms t checks).map (fun a => (a.timestamp.nanos / 1000000000, a.status)) =
        [(2, .raise), (4, .continues), (6, .continues), (7, .fall), (10, .raise)] ∧
      (turnsWithin (alarms t checks) start (.ofMillis 8000)).length = 3 ∧
      (turnsWithin (alarms t checks) start (.ofMillis 8000)).length ≤
        8000000000 / 2000000000 + 1 := by
  intro t checks start
  have hplain : ∀ c ∈ checks, c.1.leap = false := by decide +kernel
  have htimes : checks.Pairwise fun c c' => c.1.nanos ≤ c'.1.nanos := by decide +kernel
  have hpos : 0 < t.timeout.nanos := by decide
  obtain ⟨-, -, -, -, hbound⟩ := turns_of_run t hplain htimes
  exact ⟨hplain, htimes, hpos, by decide +kernel, by decide +kernel,
    hbound hpos start (.ofMillis 8000)⟩

/-- Two turns in a row can lie less than the dwell time apart where the clock shows a leap
second: the low values that end an alarm begin in the leap second, and from there the dwell
time passes before it has passed since the alarm was raised. -/
theorem not_behind_of_leapSecond :
    ¬ ∀ (t : Thresholds) (checks : List (Timestamp × Figure)), t.low < t.high →
      (checks.Pairwise fun c c' => c.1 ≤ c'.1) →
        (turnsOf (alarms t checks)).IsChain fun a b =>
          (t.timeout.nanos : ℤ) ≤ a.timestamp.between b.timestamp := by
  intro h
  have hbehind := h ⟨80, 90, .ofMillis 1000⟩
    ((⟨58500000000, false⟩, 95) :: acrossLeapSecond [95, 0, 0]) (by decide) (by decide +kernel)
  exact absurd hbehind (by decide +kernel)

end Detector

end QuotaWatch
