/-
# Averaging windows

A window keeps the latest readings of one entity. Each new reading pushes out,
from the old end, those that are older than the retention before it. The
average takes the rounded mean of each figure. The entries of the partitions are
gone through once, with a running total for each name, so a partition is
averaged over the entries that carry its name.

Key definitions: `Window`, `Window.push`, `Window.average`, `Window.countIn`, `roundedDiv`.
Key theorems: `Window.push_ne_nil`.
-/
import QuotaWatch.Reading
import QuotaWatch.Fault

namespace QuotaWatch

open Time

/-- The retained readings of one entity, oldest first. -/
structure Window where
  retention : Span
  readings : List Reading := []
deriving Repr, DecidableEq, Inhabited

/-- A sum of amounts over their number, a half going up. -/
def roundedDiv (sum count : Nat) : UInt64 := UInt64.ofNat ((sum + count / 2) / count)

/-- The mean of amounts. -/
def roundedMean (amounts : List UInt64) : UInt64 :=
  roundedDiv ((amounts.map UInt64.toNat).foldr (· + ·) 0) amounts.length

namespace Window

/-- The readings behind the leading ones that are older than the cutoff. -/
def dropOld (cutoff : Timestamp) (readings : List Reading) : List Reading :=
  readings.dropWhile fun r => r.timestamp < cutoff

/-- Take in a reading. Where no time lies a retention before it nothing is pushed out. -/
def push (w : Window) (r : Reading) : Window :=
  let readings := w.readings ++ [r]
  match r.timestamp.back? w.retention with
  | some cutoff => { w with readings := dropOld cutoff readings }
  | none => { w with readings }

/-- What the entries of one partition add up to, and how many there are. -/
structure Total where
  name : String
  sum : Nat
  count : Nat
deriving Repr, DecidableEq, Inhabited

/-- Take in an entry. It counts towards the total of its name; a new name goes to the end. -/
def countIn (totals : List Total) (p : PartitionUsage) : List Total :=
  match totals with
  | [] => [⟨p.name, p.used.toNat, 1⟩]
  | total :: rest =>
    if total.name = p.name then ⟨total.name, total.sum + p.used.toNat, total.count + 1⟩ :: rest
    else total :: countIn rest p

/-- The totals of the partitions over all readings. -/
def totals (readings : List Reading) : List Total :=
  (readings.flatMap (·.partitions)).foldl countIn []

/-- The mean of every figure, with the time of the latest reading. -/
def averageOf (readings : List Reading) (latest : Reading) : Reading :=
  { cpu := roundedMean (readings.map (·.cpu))
    ram := roundedMean (readings.map (·.ram))
    partitions := (totals readings).map fun t => ⟨t.name, roundedDiv t.sum t.count⟩
    inTraffic := roundedMean (readings.map (·.inTraffic))
    outTraffic := roundedMean (readings.map (·.outTraffic))
    timestamp := latest.timestamp }

/-- The average of an entity, if a reading is retained. -/
def average (w : Window) (entity : String) : Except Fault Reading :=
  match w.readings.getLast? with
  | none => .error (.noData entity)
  | some latest => .ok (averageOf w.readings latest)

/-- The reading just taken in is never pushed out by a time before its own. -/
theorem dropOld_append {cutoff : Timestamp} {r : Reading} (readings : List Reading)
    (h : cutoff ≤ r.timestamp) : dropOld cutoff (readings ++ [r]) ≠ [] := by
  induction readings with
  | nil => simp [dropOld, Timestamp.not_lt.2 h]
  | cons first rest ih =>
    simp only [dropOld, List.cons_append, List.dropWhile_cons] at ih ⊢
    split
    · exact ih
    · simp

/-- A window is never empty behind a push. -/
theorem push_ne_nil (w : Window) (r : Reading) : (w.push r).readings ≠ [] := by
  unfold push
  split
  · rename_i cutoff h
    obtain ⟨-, rfl⟩ := Timestamp.back?_eq_some h
    exact dropOld_append w.readings (Timestamp.back_le _ _)
  · simp

end Window

end QuotaWatch
