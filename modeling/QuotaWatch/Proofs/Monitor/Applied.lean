/-
# What the rules of an entity come to

A rule set is judged as a whole: CPU, RAM, the partitions in the order of their rules,
received and sent traffic, whether or not the entity is measured on them
(`RuleSet.faultIn_validate`). Then each rule that applies to the entity is resolved, in the
same order (`AppliedRule.faultIn_buildEach`). The first fault counts; where there is none,
every rule that applies has one processor and there is no other (`AppliedRule.runs_of_ok`).
A rule for a partition that the entity is not measured on leaves a note and nothing else.

Key definitions: `RuleSet.judgements`, `AppliedRule`, `RuleSet.applied`,
`AppliedRule.thresholds`, `Processor.Runs`.
Key theorems: `RuleSet.faultIn_validate`, `RuleSet.builds_assignments`,
`buildProcessors_outcome`.
-/
import QuotaWatch.Proofs.Monitor.Construction

namespace QuotaWatch

/-! ### Judging a rule set -/

/-- What is wrong with the bounds of a rule. -/
def Rule.judgement (parameter : String) (rule : Rule) : Option Fault :=
  rule.bounds.flaw.map (.invalidRule parameter)

/-- What is wrong with a rule for traffic, which has no capacity. -/
def Rule.trafficJudgement (parameter : String) (rule : Rule) : Option Fault :=
  if rule.isRelative then some (.invalidRule parameter .relativeTraffic)
  else rule.judgement parameter

/-- What is wrong with a rule for a partition behind others: it has the name of one of them,
or its bounds are not right. -/
def PartitionRule.judgement (before : List PartitionRule) (p : PartitionRule) : Option Fault :=
  if p.name ∈ before.map (·.name) then some (.invalidRule p.name .repeatedPartition)
  else p.rule.judgement p.name

/-- What is wrong with each rule of a set, in the order in which they are judged. -/
def RuleSet.judgements (rules : RuleSet) : List (Option Fault) :=
  rules.cpu.toList.map (Rule.judgement "cpu") ++
    (rules.ram.toList.map (Rule.judgement "ram") ++
      ((rules.partitions.zipIdx.map fun (p, position) =>
          p.judgement (rules.partitions.take position)) ++
        (rules.inTraffic.toList.map (Rule.trafficJudgement "inTraffic") ++
          rules.outTraffic.toList.map (Rule.trafficJudgement "outTraffic"))))

section Judging

/-- Work in two parts of which the first gives nothing fails with the first fault. -/
theorem faultIn_bind {α : Type} (x : Except Fault Unit) (y : Except Fault α) :
    faultIn (x >>= fun _ => y) = (faultIn x).or (faultIn y) := by
  cases x <;> rfl

theorem bind_eq_ok {x y : Except Fault Unit} :
    (x >>= fun _ => y) = .ok () ↔ x = .ok () ∧ y = .ok () := by
  cases x <;> simp [bind, Except.bind]

theorem faultIn_eq_none {ε α : Type} {x : Except ε α} : faultIn x = none ↔ ∃ a, x = .ok a := by
  cases x <;> simp [faultIn]

theorem Rule.faultIn_validate (rule : Rule) (parameter : String) :
    faultIn (rule.validate parameter) = rule.judgement parameter := by
  unfold validate judgement
  cases rule.bounds.flaw <;> rfl

namespace RuleSet

theorem faultIn_validateFor (parameter : String) (rule? : Option Rule) :
    faultIn (validateFor parameter rule?) =
      (rule?.toList.map (Rule.judgement parameter)).findSome? id := by
  cases rule? with
  | none => rfl
  | some rule => simp [validateFor, Rule.faultIn_validate]

theorem faultIn_validateTraffic (parameter : String) (rule? : Option Rule) :
    faultIn (validateTraffic parameter rule?) =
      (rule?.toList.map (Rule.trafficJudgement parameter)).findSome? id := by
  cases rule? with
  | none => rfl
  | some rule =>
    by_cases hrelative : rule.isRelative = true
    · simp [validateTraffic, Rule.trafficJudgement, hrelative, faultIn]
    · simp [validateTraffic, Rule.trafficJudgement, hrelative, Rule.faultIn_validate]

/-- The partition rules behind `before`, of which `seen` are the names. -/
theorem faultIn_validatePartitions : ∀ (ps before : List PartitionRule) (seen : List String),
    (∀ name, name ∈ seen ↔ name ∈ before.map (·.name)) →
    faultIn (validatePartitions seen ps) =
      ((ps.zipIdx before.length).map fun (p, position) =>
        p.judgement ((before ++ ps).take position)).findSome? id
  | [], _, _, _ => rfl
  | p :: ps, before, seen, hseen => by
    have hbefore : (before ++ p :: ps).take before.length = before := List.take_left
    have hnames : ∀ name, name ∈ p.name :: seen ↔ name ∈ (before ++ [p]).map (·.name) := by
      intro name
      simp [hseen name, or_comm]
    have hrest := faultIn_validatePartitions ps (before ++ [p]) (p.name :: seen) hnames
    rw [List.append_assoc, List.singleton_append, List.length_append,
      List.length_singleton] at hrest
    rw [List.zipIdx_cons, List.map_cons, List.findSome?_cons]
    dsimp only [id]
    rw [hbefore]
    by_cases hmem : p.name ∈ before.map (·.name)
    · have hrepeated : p.name ∈ seen := (hseen p.name).mpr hmem
      rw [validatePartitions, if_pos hrepeated, PartitionRule.judgement, if_pos hmem]
      rfl
    · have hnew : p.name ∉ seen := fun h => hmem ((hseen p.name).mp h)
      rw [validatePartitions, if_neg hnew, PartitionRule.judgement, if_neg hmem, faultIn_bind,
        Rule.faultIn_validate, hrest]
      cases p.rule.judgement p.name <;> rfl

/-- **A rule set is judged** by the first of its judgements that finds a fault. -/
theorem faultIn_validate (rules : RuleSet) :
    faultIn rules.validate = rules.judgements.findSome? id := by
  have hpartitions := faultIn_validatePartitions rules.partitions [] [] (by simp)
  rw [List.length_nil, List.nil_append] at hpartitions
  rw [validate, faultIn_bind, faultIn_bind, faultIn_bind, faultIn_bind, faultIn_validateFor,
    faultIn_validateFor, hpartitions, faultIn_validateTraffic, faultIn_validateTraffic]
  simp only [judgements, List.findSome?_append]

/-- Partition rules pass if each of them does and no two have one name. -/
theorem validatePartitions_eq_ok : ∀ {seen : List String} {ps : List PartitionRule},
    validatePartitions seen ps = .ok () ↔
      (ps.map (·.name)).Nodup ∧ ∀ p ∈ ps, p.name ∉ seen ∧ p.rule.validate p.name = .ok ()
  | seen, [] => by simp [validatePartitions]
  | seen, p :: ps => by
    rw [validatePartitions]
    by_cases hseen : p.name ∈ seen
    · simp [hseen]
    · rw [if_neg hseen]
      cases hvalid : p.rule.validate p.name with
      | error fault => simp [bind, Except.bind, hvalid]
      | ok _ =>
        have hrest : validatePartitions (p.name :: seen) ps = .ok () ↔ _ :=
          validatePartitions_eq_ok
        simp only [bind, Except.bind, hrest]
        simp
        grind

end RuleSet

end Judging

/-! ### Rules that apply -/

/-- The label of a figure in the names of processors. -/
def Parameter.label : Parameter → String
  | .cpu => "CPU"
  | .ram => "RAM"
  | .partition name => "Partition " ++ name
  | .inTraffic => "Traffic In"
  | .outTraffic => "Traffic Out"

/-- What percentages of a figure are taken of, where it is known. -/
def Parameter.full (capacity : Capacity) : Parameter → Option UInt64
  | .cpu => some 10000
  | .ram => some capacity.ram
  | .partition name => toldSize name capacity.partitions
  | .inTraffic | .outTraffic => none

/-- A rule with the figure that it bounds. -/
structure AppliedRule where
  parameter : Parameter
  rule : Rule

/-- The thresholds of a rule for its figure. -/
def AppliedRule.thresholds (capacity : Capacity) (a : AppliedRule) : Except Fault Thresholds :=
  a.rule.resolve a.parameter.name (a.parameter.full capacity)

/-- The rules that apply to an entity measured on `partitions`. -/
def RuleSet.applied (rules : RuleSet) (partitions : List String) : List AppliedRule :=
  rules.cpu.toList.map (⟨.cpu, ·⟩) ++ rules.ram.toList.map (⟨.ram, ·⟩) ++
    (rules.partitions.filter (·.name ∈ partitions)).map (fun p => ⟨.partition p.name, p.rule⟩) ++
    rules.inTraffic.toList.map (⟨.inTraffic, ·⟩) ++
    rules.outTraffic.toList.map (⟨.outTraffic, ·⟩)

/-- A rule set without the rules for partitions that are not measured. -/
def RuleSet.restrict (rules : RuleSet) (partitions : List String) : RuleSet :=
  { rules with partitions := rules.partitions.filter (·.name ∈ partitions) }

/-- A processor that runs a rule for its figure and has seen nothing yet. -/
structure Processor.Runs (p : Processor) (entity : String) (capacity : Capacity)
    (a : AppliedRule) : Prop where
  name : p.name = entity ++ " " ++ a.parameter.label
  parameter : p.parameter = a.parameter
  atRest : p.detector.state = .normal none
  thresholds : a.thresholds capacity = .ok p.detector.thresholds
  apart : p.detector.thresholds.low < p.detector.thresholds.high
  timeout : p.detector.thresholds.timeout = a.rule.bounds.timeout

/-- Resolved thresholds have the dwell time of their rule. -/
theorem Rule.timeout_of_resolve {r : Rule} {parameter : String} {capacity : Option UInt64}
    {t : Thresholds} (h : r.resolve parameter capacity = .ok t) :
    t.timeout = r.bounds.timeout := by
  unfold resolve at h
  cases hvalid : r.validate parameter with
  | error fault => simp [hvalid, bind, Except.bind] at h
  | ok _ =>
    simp only [hvalid, bind, Except.bind] at h
    split at h
    · cases h
    · split at h
      · cases h
        rfl
      · cases h

/-- Whether a processor is to be built. -/
def Assignment.isBuild : Assignment → Bool
  | .skip _ => false
  | .build _ _ _ _ => true

/-- The assignment of a rule that applies. -/
def AppliedRule.assignment (capacity : Capacity) (a : AppliedRule) : Assignment :=
  .build a.parameter.label a.parameter a.rule (a.parameter.full capacity)

namespace RuleSet

variable {rules : RuleSet} {capacity : Capacity} {partitions : List String}

theorem filter_assignOne (label : String) (parameter : Parameter) (bound : Option UInt64)
    (rule? : Option Rule) : (assignOne label parameter bound rule?).filter (·.isBuild) =
      assignOne label parameter bound rule? := by
  cases rule? <;> rfl

theorem filter_assignPartition (capacity : Capacity) (partitions : List String) :
    ∀ ps : List PartitionRule,
      (ps.map (assignPartition capacity partitions)).filter (·.isBuild) =
        ((ps.filter (·.name ∈ partitions)).map fun p =>
          AppliedRule.mk (.partition p.name) p.rule).map (·.assignment capacity)
  | [] => rfl
  | p :: ps => by
    have ih := filter_assignPartition capacity partitions ps
    by_cases hmem : p.name ∈ partitions
    · have hbuild : assignPartition capacity partitions p =
          (AppliedRule.mk (.partition p.name) p.rule).assignment capacity := by
        rw [assignPartition, if_pos hmem, Capacity.partitionTotal, partitionTotal_eq_toldSize]
        rfl
      rw [List.map_cons, hbuild, List.filter_cons_of_pos rfl, ih,
        List.filter_cons_of_pos (by simpa using hmem), List.map_cons, List.map_cons]
    · have hskip : assignPartition capacity partitions p = .skip p.name := if_neg hmem
      rw [List.map_cons, hskip, List.filter_cons_of_neg (by simp [Assignment.isBuild]), ih,
        List.filter_cons_of_neg (by simpa using hmem)]

theorem assignOne_eq (capacity : Capacity) (parameter : Parameter) (rule? : Option Rule) :
    assignOne parameter.label parameter (parameter.full capacity) rule? =
      (rule?.toList.map (AppliedRule.mk parameter)).map (·.assignment capacity) := by
  cases rule? <;> rfl

/-- The rules that become processors are those that apply, in their order. -/
theorem builds_assignments (rules : RuleSet) (capacity : Capacity) (partitions : List String) :
    (rules.assignments capacity partitions).filter (·.isBuild) =
      (rules.applied partitions).map (·.assignment capacity) := by
  simp only [assignments, applied, List.filter_append, filter_assignOne, filter_assignPartition,
    List.map_append]
  rw [← assignOne_eq capacity .cpu, ← assignOne_eq capacity .ram,
    ← assignOne_eq capacity .inTraffic, ← assignOne_eq capacity .outTraffic]
  rfl

/-- Where a rule set passes, it passes without some of its partition rules. -/
theorem validate_restrict (h : rules.validate = .ok ()) (partitions : List String) :
    (rules.restrict partitions).validate = .ok () := by
  simp only [validate, bind_eq_ok] at h ⊢
  obtain ⟨hcpu, hram, hpartitions, htraffic⟩ := h
  obtain ⟨hapart, hvalid⟩ := validatePartitions_eq_ok.mp hpartitions
  refine ⟨hcpu, hram, validatePartitions_eq_ok.mpr ⟨?_, ?_⟩, htraffic⟩
  · exact hapart.sublist (List.filter_sublist.map _)
  · exact fun p hp => hvalid p (List.mem_of_mem_filter hp)

theorem applied_restrict (rules : RuleSet) (partitions : List String) :
    (rules.restrict partitions).applied partitions = rules.applied partitions := by
  simp only [applied, restrict, List.filter_filter, Bool.and_self]

end RuleSet

/-! ### Building the processors -/

theorem buildEach_build (entity label : String) (parameter : Parameter) (rule : Rule)
    (bound : Option UInt64) (as : List Assignment) :
    (buildEach entity (.build label parameter rule bound :: as)).result =
      (rule.resolve parameter.name bound >>= fun t => (buildEach entity as).result.map
        (Processor.fresh (entity ++ " " ++ label) parameter t :: ·)) := by
  cases hresolve : rule.resolve parameter.name bound with
  | error fault => simp [buildEach, bind, Attempt.andThen, Attempt.lift, Except.bind, hresolve]
  | ok t =>
    cases hrest : (buildEach entity as).result with
    | error fault =>
      simp [buildEach, bind, Attempt.andThen, Attempt.lift, Except.bind, Except.map, hresolve,
        hrest]
    | ok ps =>
      simp [buildEach, bind, Attempt.andThen, Attempt.lift, Except.bind, Except.map, hresolve,
        hrest, pure, Attempt.done]

/-- A rule that is skipped gives no processor and no fault. -/
theorem buildEach_filter (entity : String) : ∀ as : List Assignment,
    (buildEach entity (as.filter (·.isBuild))).result = (buildEach entity as).result
  | [] => rfl
  | .skip partition :: rest => buildEach_filter entity rest
  | .build label parameter rule bound :: rest => by
    rw [List.filter_cons_of_pos rfl, buildEach_build, buildEach_build, buildEach_filter entity rest]

/-- What a rule that is skipped leaves. -/
def Assignment.note? (entity : String) : Assignment → Option Event
  | .skip partition => some (.noted (.ruleSkipped entity partition))
  | .build _ _ _ _ => none

theorem buildEach_notes {entity : String} : ∀ {as : List Assignment} {ps : List Processor},
    (buildEach entity as).result = .ok ps →
      (buildEach entity as).events = as.filterMap (·.note? entity)
  | [], _, _ => rfl
  | .skip partition :: rest, ps, h => by
    have ih : (buildEach entity rest).events = rest.filterMap (·.note? entity) :=
      buildEach_notes h
    have hnote : (Assignment.skip partition).note? entity =
        some (.noted (.ruleSkipped entity partition)) := rfl
    rw [List.filterMap_cons_some hnote, ← ih]
    rfl
  | .build label parameter rule bound :: rest, ps, h => by
    obtain ⟨t, ht, h⟩ := Attempt.bind_result_ok.mp h
    obtain ⟨qs, hqs, -⟩ := Attempt.bind_result_ok.mp h
    have ih := buildEach_notes hqs
    rw [List.filterMap_cons_none rfl, ← ih, buildEach, Attempt.bind_ok _ ht, Attempt.bind_ok _ hqs]
    exact List.append_nil _

theorem RuleSet.notes_assignments (entity : String) (rules : RuleSet) (capacity : Capacity)
    (partitions : List String) :
    (rules.assignments capacity partitions).filterMap (·.note? entity) =
      (rules.partitions.filter (·.name ∉ partitions)).map fun p =>
        .noted (.ruleSkipped entity p.name) := by
  have hone : ∀ (label : String) (parameter : Parameter) (bound : Option UInt64)
      (rule? : Option Rule),
      (assignOne label parameter bound rule?).filterMap (·.note? entity) = [] := by
    intro label parameter bound rule?
    cases rule? <;> rfl
  have hpartitions : ∀ ps : List PartitionRule,
      (ps.map (assignPartition capacity partitions)).filterMap (·.note? entity) =
        (ps.filter (·.name ∉ partitions)).map fun p => .noted (.ruleSkipped entity p.name) := by
    intro ps
    induction ps with
    | nil => rfl
    | cons p ps ih =>
      by_cases hmem : p.name ∈ partitions
      · have hnote : (assignPartition capacity partitions p).note? entity = none := by
          rw [assignPartition, if_pos hmem]
          rfl
        rw [List.map_cons, List.filterMap_cons_none hnote, ih,
          List.filter_cons_of_neg (by simpa using hmem)]
      · have hnote : (assignPartition capacity partitions p).note? entity =
            some (.noted (.ruleSkipped entity p.name)) := by
          rw [assignPartition, if_neg hmem]
          rfl
        rw [List.map_cons, List.filterMap_cons_some hnote, ih,
          List.filter_cons_of_pos (by simpa using hmem), List.map_cons]
  simp only [assignments, List.filterMap_append, hone, hpartitions, List.nil_append,
    List.append_nil]

namespace AppliedRule

variable {entity : String} {capacity : Capacity}

/-- The rules are resolved in their order, and the first fault counts. -/
theorem faultIn_buildEach (entity : String) (capacity : Capacity) : ∀ l : List AppliedRule,
    faultIn (buildEach entity (l.map (·.assignment capacity))).result =
      l.findSome? fun a => faultIn (a.thresholds capacity)
  | [] => rfl
  | a :: l => by
    have ih := faultIn_buildEach entity capacity l
    rw [List.map_cons, assignment, buildEach_build, List.findSome?_cons, ← ih, thresholds]
    cases a.rule.resolve a.parameter.name (a.parameter.full capacity) with
    | error fault => rfl
    | ok t => cases (buildEach entity (l.map (·.assignment capacity))).result <;> rfl

/-- Where each of them can be resolved, each has its processor. -/
theorem runs_of_ok : ∀ {l : List AppliedRule} {ps : List Processor},
    (buildEach entity (l.map (·.assignment capacity))).result = .ok ps →
      List.Forall₂ (fun a p => p.Runs entity capacity a) l ps
  | [], ps, h => by
    cases h
    exact .nil
  | a :: l, ps, h => by
    rw [List.map_cons, assignment, buildEach_build] at h
    cases hresolve : a.rule.resolve a.parameter.name (a.parameter.full capacity) with
    | error fault =>
      rw [hresolve] at h
      cases h
    | ok t =>
      cases hrest : (buildEach entity (l.map (·.assignment capacity))).result with
      | error fault =>
        rw [hresolve, hrest] at h
        cases h
      | ok qs =>
        rw [hresolve, hrest] at h
        cases h
        have hruns : (Processor.fresh (entity ++ " " ++ a.parameter.label) a.parameter t).Runs
            entity capacity a :=
          ⟨rfl, rfl, rfl, hresolve, Rule.low_lt_high_of_resolve hresolve,
            Rule.timeout_of_resolve hresolve⟩
        exact .cons hruns (runs_of_ok hrest)

end AppliedRule

/-- **What becomes of a rule set.** There are processors just where the rule set passes and
every rule that applies can be resolved; then there is one for each of these rules, in
their order, and the rules for partitions that are not measured leave notes. Otherwise
the first fault counts, where the whole rule set is judged before any rule is resolved.
In a rule set that passes the rules for partitions that are not measured change nothing. -/
theorem buildProcessors_outcome (entity : String) (rules : RuleSet) (capacity : Capacity)
    (partitions : List String) :
    let built := buildProcessors entity rules capacity partitions
    let applied := rules.applied partitions
    ((∃ ps, built.result = .ok ps) ↔
        rules.validate = .ok () ∧ ∀ a ∈ applied, ∃ t, a.thresholds capacity = .ok t) ∧
      (∀ ps, built.result = .ok ps →
        List.Forall₂ (fun a p => p.Runs entity capacity a) applied ps ∧
          built.events = (rules.partitions.filter (·.name ∉ partitions)).map fun p =>
            .noted (.ruleSkipped entity p.name)) ∧
      faultIn built.result = (rules.judgements ++
        applied.map fun a => faultIn (a.thresholds capacity)).findSome? id ∧
      (rules.validate = .ok () → built.result =
        (buildProcessors entity (rules.restrict partitions) capacity partitions).result) := by
  intro built applied
  have hbuilt : ∀ rules : RuleSet,
      (buildProcessors entity rules capacity partitions).result =
        (rules.validate >>= fun _ =>
          (buildEach entity ((rules.applied partitions).map (·.assignment capacity))).result) := by
    intro rules
    rw [← RuleSet.builds_assignments, buildEach_filter, buildProcessors]
    cases hvalid : rules.validate <;> rfl
  have hfault : faultIn built.result = (faultIn rules.validate).or
      (applied.findSome? fun a => faultIn (a.thresholds capacity)) := by
    rw [← AppliedRule.faultIn_buildEach entity capacity applied, ← faultIn_bind, ← hbuilt rules]
  refine ⟨?_, fun ps hps => ⟨?_, ?_⟩, ?_, fun hvalid => ?_⟩
  · rw [← faultIn_eq_none, hfault, Option.or_eq_none_iff, faultIn_eq_none,
      List.findSome?_eq_none_iff]
    simp only [faultIn_eq_none]
    exact and_congr_left fun _ => ⟨fun ⟨_, hvalid⟩ => hvalid, fun hvalid => ⟨_, hvalid⟩⟩
  · have hps := (hbuilt rules).symm.trans hps
    cases hvalid : rules.validate with
    | error fault =>
      rw [hvalid] at hps
      cases hps
    | ok _ =>
      rw [hvalid] at hps
      exact AppliedRule.runs_of_ok hps
  · obtain ⟨_, hvalid, heach⟩ := Attempt.bind_result_ok.mp hps
    rw [← RuleSet.notes_assignments entity rules capacity, ← buildEach_notes heach]
    exact congrArg Attempt.events (Attempt.bind_ok _ hvalid)
  · rw [hfault, RuleSet.faultIn_validate, List.findSome?_append, List.findSome?_map]
    rfl
  · have hrestrict := RuleSet.validate_restrict hvalid partitions
    rw [hbuilt (rules.restrict partitions), hrestrict, RuleSet.applied_restrict, ← hvalid]
    exact hbuilt rules

/-- Percentages of the partition whose size is known become bytes of it. Nothing is known of the
other one, so that there are no percentages of it. -/
example :
    let capacity : Capacity := ⟨4, 4000, [{ name := "data", path := "/data", totalSize := 200 }]⟩
    let relative : Rule := .relative { min := 80, max := 90 }
    let bounds (p : Processor) := (p.name, p.detector.thresholds.low, p.detector.thresholds.high)
    (buildProcessors "a" { partitions := [⟨"data", relative⟩] } capacity ["data", "log"]).result.map
        (·.map bounds) = .ok [("a Partition data", 160, 180)] ∧
      (buildProcessors "a" { partitions := [⟨"data", relative⟩, ⟨"log", relative⟩] } capacity
          ["data", "log"]).result = .error (.invalidRule "log" .noCapacity) := ⟨rfl, rfl⟩

/-- The thresholds for the CPU would collapse, but the rule for a partition that is not
measured is judged before that. -/
example :
    (buildProcessors "a"
      { cpu := some (.absolute { min := 5, max := 5.25 })
        partitions := [⟨"scratch", .absolute { min := 4, max := 3 }⟩] }
      ⟨2, 4000, []⟩ []).result =
        .error (.invalidRule "scratch" (.notBelow 4 3)) := rfl

end QuotaWatch
