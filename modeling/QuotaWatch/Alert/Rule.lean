/-
# Alert rules

A rule bounds one figure, in units of the figure or in percent of its capacity.
Resolving a rule gives whole thresholds, or says what is wrong with it.

Key definitions: `Bounds`, `Rule`, `Rule.validate`, `Rule.resolve`.
Key theorems: `Rule.low_lt_high_of_resolve`.
-/
import QuotaWatch.Alert.Detector
import QuotaWatch.Fault

namespace QuotaWatch

open Time

/-- The bounds of a rule: the figure is over above `max` and at rest below `min`. -/
structure Bounds where
  timeout : Span := .zero
  min : Float
  max : Float
deriving Repr, Inhabited

/-- What is wrong with a bound on its own. -/
def Bounds.flawOf (bound : Bound) (value : Float) : Option RuleFlaw :=
  if !value.isFinite then some (.notFinite bound)
  else if value < 0 then some (.negative bound)
  else none

/-- What is wrong with the bounds: the lower one is judged first, then the upper
one, then the two against each other. -/
def Bounds.flaw (b : Bounds) : Option RuleFlaw :=
  (flawOf .min b.min).or ((flawOf .max b.max).or
    (if b.min ≥ b.max then some (.notBelow b.min b.max) else none))

/-- The rule for one figure. -/
inductive Rule where
  /-- The bounds are units of the figure. -/
  | absolute (bounds : Bounds)
  /-- The bounds are percentages of the capacity. -/
  | relative (bounds : Bounds)
deriving Repr, Inhabited

namespace Rule

def bounds : Rule → Bounds
  | .absolute b | .relative b => b

def isRelative : Rule → Bool
  | .absolute _ => false
  | .relative _ => true

/-- Judge the rule of a parameter on its own. -/
def validate (r : Rule) (parameter : String) : Except Fault Unit :=
  match r.bounds.flaw with
  | some flaw => .error (.invalidRule parameter flaw)
  | none => .ok ()

/-- A percentage of a capacity as a figure. -/
def share (capacity : UInt64) (percent : Float) : Figure :=
  Decimal.nearestWord (capacity.toFloat * percent / 100)

/-- The bounds as figures. -/
def figures : Rule → Option UInt64 → Option (Figure × Figure)
  | .absolute b, _ => some (Decimal.nearestWord b.min, Decimal.nearestWord b.max)
  | .relative b, some capacity => some (share capacity b.min, share capacity b.max)
  | .relative _, none => none

/-- The thresholds of a rule for a parameter with the given capacity. -/
def resolve (r : Rule) (parameter : String) (capacity : Option UInt64) :
    Except Fault Thresholds := do
  r.validate parameter
  match r.figures capacity with
  | none => .error (.invalidRule parameter .noCapacity)
  | some (low, high) =>
    if low < high then .ok ⟨low, high, r.bounds.timeout⟩
    else .error (.invalidRule parameter (.collapsed low high))

/-- Resolved thresholds are apart. -/
theorem low_lt_high_of_resolve {r : Rule} {parameter : String} {capacity : Option UInt64}
    {t : Thresholds} (h : r.resolve parameter capacity = .ok t) : t.low < t.high := by
  unfold resolve at h
  cases hv : r.validate parameter with
  | error e => simp [hv, bind, Except.bind] at h
  | ok _ =>
    simp only [hv, bind, Except.bind] at h
    split at h
    · exact absurd h (by simp)
    · split at h
      · cases h; assumption
      · exact absurd h (by simp)

end Rule

end QuotaWatch
