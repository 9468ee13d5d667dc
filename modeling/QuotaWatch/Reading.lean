/-
# Readings

The figures of one entity at one time: the node itself or one of its instances.
A snapshot puts the reading of the node and those of its instances together.

Key definitions: `Ident`, `Reading`, `Reading.partitionUsed`, `Snapshot`, `cpuFigure`.
Key theorems: `Reading.partitionUsed_zero`.
-/
import QuotaWatch.Time.Timestamp
import QuotaWatch.Decimal.Layout

namespace QuotaWatch

open Time

/-- A measured amount: bytes, or hundredths of a percent. -/
abbrev Figure := UInt64

/-- The figure of a node that is wholly busy; CPU figures are hundredths of a percent. -/
def fullCpu : Figure := 10000

/-- A share of the CPU in percent as a figure. What is negative or no number is idle. -/
def cpuFigure (percent : Float) : Figure :=
  if !percent.isFinite || percent ≤ 0 then 0 else Decimal.nearestWord (percent * 100)

/-- What an instance runs. -/
structure Ident where
  service : String := ""
  subject : String := ""
  number : UInt64 := 0
deriving Repr, DecidableEq, Inhabited

/-- The parts of an ident with slashes. -/
def Ident.display (i : Ident) : String :=
  i.service ++ "/" ++ i.subject ++ "/" ++ String.ofList (Decimal.ofNat i.number.toNat)

/-- The bytes used on a named partition. -/
structure PartitionUsage where
  name : String
  used : Figure
deriving Repr, DecidableEq, Inhabited

/-- The figures of one entity at one time. -/
structure Reading where
  cpu : Figure := 0
  ram : Figure := 0
  partitions : List PartitionUsage := []
  inTraffic : Figure := 0
  outTraffic : Figure := 0
  timestamp : Timestamp := Timestamp.epoch
deriving Repr, DecidableEq, Inhabited

namespace Reading

/-- Nothing measured yet, with an entry for each partition. -/
def zero (names : List String) : Reading := { partitions := names.map (⟨·, 0⟩) }

/-- The bytes used on the first partition of a name. -/
def partitionUsed (r : Reading) (name : String) : Option Figure :=
  (r.partitions.find? (·.name == name)).map (·.used)

/-- Before anything is measured a partition has the figure zero if it has an entry. -/
theorem partitionUsed_zero (names : List String) (name : String) :
    (zero names).partitionUsed name = if name ∈ names then some 0 else none := by
  induction names with
  | nil => rfl
  | cons n names ih =>
    have step : (zero (n :: names)).partitionUsed name =
        if n = name then some 0 else (zero names).partitionUsed name := by
      by_cases h : n = name <;> simp [zero, partitionUsed, h]
    rw [step, ih]
    by_cases h : n = name
    · simp [h]
    · have h' : name ≠ n := fun e => h e.symm
      simp [h, h']

end Reading

/-- The reading of one instance. -/
structure InstanceReading where
  ident : Ident
  reading : Reading
deriving Repr, DecidableEq, Inhabited

/-- The readings of a node and of its instances, put together at one time. -/
structure Snapshot where
  nodeId : String
  node : Reading
  instances : List InstanceReading
  timestamp : Timestamp
deriving Repr, DecidableEq, Inhabited

end QuotaWatch
