/-
# The alarm of one figure

A detector turns a row of values into alarms. It is raised once the value has
been at or above the upper threshold for the dwell time, and falls once it has
been below the lower one for the dwell time; while it is raised it reports
again each time the dwell time has passed since its last report.

Key definitions: `Thresholds`, `Status`, `Alarm`, `Detector`, `Detector.check`.
Key theorems: `Detector.checkNormal_cases`, `Detector.checkRaised_cases`,
`Detector.thresholds_check`, `Detector.mem_check`.
-/
import QuotaWatch.Reading

namespace QuotaWatch

open Time

/-- The thresholds of a figure, and the dwell time. -/
structure Thresholds where
  low : Figure
  high : Figure
  timeout : Span
deriving Repr, DecidableEq, Inhabited

/-- The stage of an alarm. -/
inductive Status where
  | raise
  | continues
  | fall
deriving Repr, DecidableEq, Inhabited

def Status.word : Status → String
  | .raise => "raise"
  | .continues => "continue"
  | .fall => "fall"

/-- What a detector reports. -/
structure Alarm where
  timestamp : Timestamp
  value : Figure
  status : Status
deriving Repr, DecidableEq, Inhabited

/-- What a detector remembers of the values it has seen. -/
inductive Detector.State where
  /-- Not raised; the time since when the value is at or above the upper threshold, if it is. -/
  | normal (crossedAt : Option Timestamp)
  /-- Raised; the time of the last report, and the time since when the value
  is below the lower threshold, if it is. -/
  | raised (lastNotified : Timestamp) (belowSince : Option Timestamp)
deriving Repr, DecidableEq, Inhabited

/-- The detector of one figure. -/
structure Detector where
  thresholds : Thresholds
  state : Detector.State := .normal none
deriving Repr, DecidableEq, Inhabited

namespace Detector

/-- Whether the alarm is on. -/
def isRaised (d : Detector) : Bool :=
  match d.state with
  | .raised _ _ => true
  | .normal _ => false

/-- A check of a detector that is not raised. -/
def checkNormal (t : Thresholds) (crossedAt : Option Timestamp) (now : Timestamp) (value : Figure) :
    State × Option Status :=
  if value < t.high then (.normal none, none)
  else
    let since := crossedAt.getD now
    if since.hasElapsed now t.timeout then (.raised now none, some .raise)
    else (.normal (some since), none)

/-- A check of a raised detector. A fall goes before a report. -/
def checkRaised (t : Thresholds) (lastNotified : Timestamp) (belowSince : Option Timestamp)
    (now : Timestamp) (value : Figure) : State × Option Status :=
  let below := if t.low ≤ value then none else some (belowSince.getD now)
  if below.any (·.hasElapsed now t.timeout) then (.normal none, some .fall)
  else if lastNotified.hasElapsed now t.timeout then (.raised now below, some .continues)
  else (.raised lastNotified below, none)

/-- The next state and the stage reported. -/
def step (t : Thresholds) (s : State) (now : Timestamp) (value : Figure) : State × Option Status :=
  match s with
  | .normal crossedAt => checkNormal t crossedAt now value
  | .raised lastNotified belowSince => checkRaised t lastNotified belowSince now value

/-- Take in one value; gives the alarm that it sets off, if any. -/
def check (d : Detector) (now : Timestamp) (value : Figure) : Detector × Option Alarm :=
  let (state, status) := step d.thresholds d.state now value
  ({ d with state }, status.map (⟨now, value, ·⟩))

/-- Take in values in order; gives what each of them sets off. -/
def run (d : Detector) : List (Timestamp × Figure) → Detector × List (Option Alarm)
  | [] => (d, [])
  | (now, value) :: checks =>
    let (d, alarm) := d.check now value
    let (d, alarms) := run d checks
    (d, alarm :: alarms)

/-- A check at rest ends the pending run, raises the alarm, or goes on with the run. -/
theorem checkNormal_cases (t : Thresholds) (crossedAt : Option Timestamp) (now : Timestamp)
    (value : Figure) :
    (value < t.high ∧ checkNormal t crossedAt now value = (.normal none, none)) ∨
    (t.high ≤ value ∧ (crossedAt.getD now).hasElapsed now t.timeout = true ∧
      checkNormal t crossedAt now value = (.raised now none, some .raise)) ∨
    (t.high ≤ value ∧ (crossedAt.getD now).hasElapsed now t.timeout = false ∧
      checkNormal t crossedAt now value = (.normal (some (crossedAt.getD now)), none)) := by
  by_cases hlow : value < t.high
  · exact .inl ⟨hlow, if_pos hlow⟩
  · have hhigh := UInt64.not_lt.1 hlow
    rw [checkNormal, if_neg hlow]
    cases hpassed : (crossedAt.getD now).hasElapsed now t.timeout with
    | true => exact .inr (.inl ⟨hhigh, rfl, if_pos hpassed⟩)
    | false => exact .inr (.inr ⟨hhigh, rfl, if_neg (by simp [hpassed])⟩)

/-- A check of a raised alarm lets it fall, or ends the pending run or goes on with it;
an alarm that does not fall is reported once the dwell time has passed. -/
theorem checkRaised_cases (t : Thresholds) (lastNotified : Timestamp)
    (belowSince : Option Timestamp) (now : Timestamp) (value : Figure) :
    (value < t.low ∧ (belowSince.getD now).hasElapsed now t.timeout = true ∧
      checkRaised t lastNotified belowSince now value = (.normal none, some .fall)) ∨
    ∃ below, (t.low ≤ value ∧ below = none ∨
        value < t.low ∧ (belowSince.getD now).hasElapsed now t.timeout = false ∧
          below = some (belowSince.getD now)) ∧
      checkRaised t lastNotified belowSince now value =
        if lastNotified.hasElapsed now t.timeout then (.raised now below, some .continues)
        else (.raised lastNotified below, none) := by
  unfold checkRaised
  by_cases hhigh : t.low ≤ value
  · refine .inr ⟨none, .inl ⟨hhigh, rfl⟩, ?_⟩
    simp [hhigh]
  · have hlow := UInt64.not_le.1 hhigh
    cases hpassed : (belowSince.getD now).hasElapsed now t.timeout with
    | true => exact .inl ⟨hlow, rfl, by simp [hhigh, hpassed]⟩
    | false =>
      refine .inr ⟨_, .inr ⟨hlow, rfl, rfl⟩, ?_⟩
      simp [hhigh, hpassed]

/-- The thresholds never change. -/
@[simp] theorem thresholds_check (d : Detector) (now : Timestamp) (value : Figure) :
    (d.check now value).1.thresholds = d.thresholds := rfl

/-- An alarm carries the time and the value of its check. -/
theorem mem_check {d : Detector} {now : Timestamp} {value : Figure} {a : Alarm}
    (h : (d.check now value).2 = some a) : a.timestamp = now ∧ a.value = value := by
  simp only [check, Option.map_eq_some_iff] at h
  obtain ⟨_, _, rfl⟩ := h
  exact ⟨rfl, rfl⟩

end Detector

end QuotaWatch
