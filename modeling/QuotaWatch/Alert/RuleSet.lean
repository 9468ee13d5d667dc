/-
# Rule sets

The rules of one entity. A rule that is not there means that its parameter sets
off no alarm.

Key definitions: `RuleSet`, `RuleSet.validate`, `RuleSet.partition`.
-/
import QuotaWatch.Alert.Rule

namespace QuotaWatch

/-- The rule for a named partition. -/
structure PartitionRule where
  name : String
  rule : Rule
deriving Repr, Inhabited

/-- The rules of one entity. -/
structure RuleSet where
  cpu : Option Rule := none
  ram : Option Rule := none
  partitions : List PartitionRule := []
  inTraffic : Option Rule := none
  outTraffic : Option Rule := none
deriving Repr, Inhabited

/-- The settings that a node brings along. -/
structure NodeSettings where
  version : String := ""
  rules : Option RuleSet := none
deriving Repr, Inhabited

namespace RuleSet

def isEmpty (r : RuleSet) : Bool :=
  r.cpu.isNone && r.ram.isNone && r.partitions.isEmpty && r.inTraffic.isNone && r.outTraffic.isNone

/-- The first rule for a partition name. -/
def partition (r : RuleSet) (name : String) : Option Rule :=
  (r.partitions.find? (·.name == name)).map (·.rule)

/-- Judge a rule that may be absent. -/
def validateFor (parameter : String) : Option Rule → Except Fault Unit
  | none => .ok ()
  | some rule => rule.validate parameter

/-- Judge the partition rules in order; `seen` are the names already met. -/
def validatePartitions (seen : List String) : List PartitionRule → Except Fault Unit
  | [] => .ok ()
  | p :: ps =>
    if p.name ∈ seen then .error (.invalidRule p.name .repeatedPartition)
    else do
      p.rule.validate p.name
      validatePartitions (p.name :: seen) ps

/-- Judge a traffic rule. Traffic has no capacity. -/
def validateTraffic (parameter : String) : Option Rule → Except Fault Unit
  | none => .ok ()
  | some rule =>
    if rule.isRelative then .error (.invalidRule parameter .relativeTraffic)
    else rule.validate parameter

/-- Judge every rule that is there; the first flaw counts. -/
def validate (r : RuleSet) : Except Fault Unit := do
  validateFor "cpu" r.cpu
  validateFor "ram" r.ram
  validatePartitions [] r.partitions
  validateTraffic "inTraffic" r.inTraffic
  validateTraffic "outTraffic" r.outTraffic

end RuleSet

end QuotaWatch
