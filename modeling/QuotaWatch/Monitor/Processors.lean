/-
# Processors from rules

The rules of an entity become its processors: CPU, RAM, the partitions in the
order of their rules, received and sent traffic. The whole rule set is judged
first. A rule for a partition that the entity is not measured on is skipped.

Key definitions: `RuleSet.assignments`, `buildProcessors`.
Key theorems: `buildEach_names`.
-/
import QuotaWatch.Monitor.Event
import QuotaWatch.Settings

namespace QuotaWatch

/-- What becomes of one rule. -/
inductive Assignment where
  /-- No processor; the partition is not measured. -/
  | skip (partition : String)
  /-- A processor with a label, for a parameter of the given capacity. -/
  | build (label : String) (parameter : Parameter) (rule : Rule) (capacity : Option UInt64)
deriving Repr, Inhabited

namespace RuleSet

/-- A rule that may be absent. -/
def assignOne (label : String) (parameter : Parameter) (capacity : Option UInt64) :
    Option Rule → List Assignment
  | none => []
  | some rule => [.build label parameter rule capacity]

/-- The rule of a partition, for an entity measured on `partitions`. -/
def assignPartition (capacity : Capacity) (partitions : List String) (p : PartitionRule) :
    Assignment :=
  if p.name ∈ partitions then
    .build ("Partition " ++ p.name) (.partition p.name) p.rule (capacity.partitionTotal p.name)
  else .skip p.name

/-- What becomes of each rule, in order. -/
def assignments (rules : RuleSet) (capacity : Capacity) (partitions : List String) :
    List Assignment :=
  assignOne "CPU" .cpu (some fullCpu) rules.cpu ++
    assignOne "RAM" .ram (some capacity.ram) rules.ram ++
    rules.partitions.map (assignPartition capacity partitions) ++
    assignOne "Traffic In" .inTraffic none rules.inTraffic ++
    assignOne "Traffic Out" .outTraffic none rules.outTraffic

end RuleSet

/-- The processors of assignments in order, up to the first rule that has none. -/
def buildEach (entity : String) : List Assignment → Attempt (List Processor)
  | [] => pure []
  | .skip partition :: rest => do
    Attempt.emit (.noted (.ruleSkipped entity partition))
    buildEach entity rest
  | .build label parameter rule capacity :: rest => do
    let thresholds ← Attempt.lift (rule.resolve parameter.name capacity)
    let processors ← buildEach entity rest
    pure (Processor.fresh (entity ++ " " ++ label) parameter thresholds :: processors)

/-- The processors of an entity measured on `partitions`. -/
def buildProcessors (entity : String) (rules : RuleSet) (capacity : Capacity)
    (partitions : List String) : Attempt (List Processor) := do
  Attempt.lift rules.validate
  buildEach entity (rules.assignments capacity partitions)

/-- The name of the processor of an assignment. -/
def Assignment.processorName? (entity : String) : Assignment → Option String
  | .skip _ => none
  | .build label _ _ _ => some (entity ++ " " ++ label)

/-- There is one processor for every rule that is not skipped, in order. -/
theorem buildEach_names (entity : String) : ∀ (as : List Assignment) (ps : List Processor),
    (buildEach entity as).result = .ok ps →
      ps.map (·.name) = as.filterMap (·.processorName? entity)
  | [], ps, h => by
    cases h
    rfl
  | .skip partition :: rest, ps, h => by
    have h : (buildEach entity rest).result = .ok ps := h
    simpa [Assignment.processorName?] using buildEach_names entity rest ps h
  | .build label parameter rule capacity :: rest, ps, h => by
    simp only [buildEach, Attempt.lift] at h
    cases hr : rule.resolve parameter.name capacity with
    | error e => simp [bind, Attempt.andThen, hr] at h
    | ok t =>
      cases hb : (buildEach entity rest).result with
      | error e => simp [bind, Attempt.andThen, hr, hb] at h
      | ok qs =>
        simp only [bind, Attempt.andThen, hr, hb, pure, Attempt.done] at h
        cases h
        simp [Assignment.processorName?, Processor.fresh, buildEach_names entity rest qs hb]

end QuotaWatch
