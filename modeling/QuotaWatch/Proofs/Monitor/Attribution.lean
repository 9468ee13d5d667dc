/-
# Which processor sets off an alert

An alert tells the name of a figure, and a partition goes by its own name. No
two processors of an entity watch one figure, as a rule set with two rules for a
partition does not pass. But a partition may be named like a figure that every
entity has, and this nothing rejects: with a rule for each of the two figures
the alerts of two processors look alike (`Monitor.not_nodup_names`). Exactly where
no partition with a rule is named like such a figure with a rule the name tells
the processor (`Monitor.attribution_of_run`).

Key definitions: `RuleSet.fixedNames`, `Terms`, `Terms.Clashes`, `Monitor.terms`.
Key theorems: `RuleSet.nodup_names_iff`, `Entity.Implied.nodup_names_iff`,
`Monitor.implied_of_run`, `Monitor.attribution_of_run`.
-/
import Mathlib.Data.List.Nodup
import QuotaWatch.Proofs.Monitor.Applied
import QuotaWatch.Proofs.Monitor.Measured

namespace QuotaWatch

open Time

/-! ### Names of the figures with rules -/

namespace RuleSet

variable {rules : RuleSet} {partitions : List String}

/-- The names of the figures with a rule that every entity has. -/
def fixedNames (rules : RuleSet) : List String :=
  ((rules.cpu.toList.map fun _ => "cpu") ++ (rules.ram.toList.map fun _ => "ram")) ++
    ((rules.inTraffic.toList.map fun _ => "inTraffic") ++
      (rules.outTraffic.toList.map fun _ => "outTraffic"))

/-- The names of the partitions that are measured and have a rule. -/
def partitionNames (rules : RuleSet) (partitions : List String) : List String :=
  (rules.partitions.filter (·.name ∈ partitions)).map (·.name)

theorem nodup_fixedNames (rules : RuleSet) : rules.fixedNames.Nodup := by
  unfold fixedNames
  cases rules.cpu <;> cases rules.ram <;> cases rules.inTraffic <;> cases rules.outTraffic <;> simp

theorem nodup_partitionNames (h : rules.validate = .ok ()) (partitions : List String) :
    (rules.partitionNames partitions).Nodup := by
  simp only [validate, bind_eq_ok] at h
  obtain ⟨-, -, hpartitions, -⟩ := h
  have hnames := (validatePartitions_eq_ok.mp hpartitions).1
  exact hnames.sublist (List.filter_sublist.map _)

/-- The figures of the rules that apply, in their order: CPU and RAM, the partitions, the traffic. -/
theorem parameters_applied (rules : RuleSet) (partitions : List String) :
    (rules.applied partitions).map (·.parameter) =
      ((rules.cpu.toList.map fun _ => Parameter.cpu) ++
        (rules.ram.toList.map fun _ => Parameter.ram)) ++
          (rules.partitionNames partitions).map Parameter.partition ++
            ((rules.inTraffic.toList.map fun _ => Parameter.inTraffic) ++
              (rules.outTraffic.toList.map fun _ => Parameter.outTraffic)) := by
  simp only [applied, partitionNames, List.map_append, List.map_map, List.append_assoc]
  rfl

/-- The names of the rules that apply are those of the fixed figures and those of
the partitions. -/
theorem names_applied_perm (rules : RuleSet) (partitions : List String) :
    ((rules.applied partitions).map (·.parameter.name)).Perm
      (rules.fixedNames ++ rules.partitionNames partitions) := by
  have hnames : (rules.partitionNames partitions).map (fun name => (Parameter.partition name).name) =
      rules.partitionNames partitions := List.map_id' _
  have happlied : (rules.applied partitions).map (·.parameter.name) =
      ((rules.applied partitions).map (·.parameter)).map Parameter.name := by
    rw [List.map_map]
    rfl
  have hswap : ∀ front middle back : List String,
      (front ++ middle ++ back).Perm (front ++ back ++ middle) := by
    intro front middle back
    rw [List.append_assoc, List.append_assoc]
    exact List.perm_append_comm.append_left front
  rw [happlied, parameters_applied]
  simp only [List.map_append, List.map_map, Function.comp_def, hnames]
  exact hswap _ _ _

/-- **The names of the rules that apply** are distinct exactly if no partition
with a rule has the name of a fixed figure with a rule. -/
theorem nodup_names_iff (h : rules.validate = .ok ()) :
    ((rules.applied partitions).map (·.parameter.name)).Nodup ↔
      ∀ p ∈ rules.partitions, p.name ∈ partitions → p.name ∉ rules.fixedNames := by
  have hfixed := rules.nodup_fixedNames
  have hnames := nodup_partitionNames h partitions
  have hmem : ∀ name, name ∈ rules.partitionNames partitions ↔
      ∃ p ∈ rules.partitions, p.name ∈ partitions ∧ p.name = name := by
    intro name
    simp [partitionNames, and_assoc]
  rw [(rules.names_applied_perm partitions).nodup_iff, List.nodup_append]
  constructor
  · rintro ⟨-, -, hapart⟩ p hp hmeasured hname
    exact hapart p.name hname p.name ((hmem _).mpr ⟨p, hp, hmeasured, rfl⟩) rfl
  · intro hapart
    refine ⟨hfixed, hnames, fun name hname other hother he => ?_⟩
    obtain ⟨p, hp, hmeasured, rfl⟩ := (hmem other).mp hother
    exact hapart p hp hmeasured (he ▸ hname)

/-- No two rules that apply are for one figure. -/
theorem nodup_parameters (h : rules.validate = .ok ()) :
    ((rules.applied partitions).map (·.parameter)).Nodup := by
  have hnames := nodup_partitionNames h partitions
  have hpartitions : ((rules.partitionNames partitions).map Parameter.partition).Nodup :=
    List.Nodup.map (fun _ _ he => Parameter.partition.inj he) hnames
  rw [parameters_applied]
  generalize rules.partitionNames partitions = names at hpartitions
  cases rules.cpu <;> cases rules.ram <;> cases rules.inTraffic <;> cases rules.outTraffic <;>
    simp [List.nodup_append, hpartitions]

end RuleSet

/-! ### Processors of an entity -/

/-- What an entity is registered with: its rules, and the names of its partitions. -/
structure Terms where
  rules : Option RuleSet
  partitions : List String

/-- A partition with a rule is named like a figure that every entity has, and this
figure has a rule too. -/
def Terms.Clashes (t : Terms) : Prop :=
  ∃ rules ∈ t.rules, ∃ p ∈ rules.partitions, p.name ∈ t.partitions ∧ p.name ∈ rules.fixedNames

namespace Entity.Implied

variable {e : Entity} {label : String} {capacity : Capacity} {t : Terms}

/-- There is a processor for each rule that applies, and the rules pass. -/
theorem parameters {rules : RuleSet} {partitions : List String}
    (h : e.Implied label (some rules) capacity partitions) :
    rules.validate = .ok () ∧
      e.processors.map (·.parameter) = (rules.applied partitions).map (·.parameter) := by
  obtain ⟨hsome, hruns, -⟩ := buildProcessors_outcome label rules capacity partitions
  have hruns := (hruns _ h.processors).1
  refine ⟨(hsome.mp ⟨_, h.processors⟩).1, ?_⟩
  have hsame : (rules.applied partitions).map (·.parameter) =
      (e.processors.map (·.afresh)).map (·.parameter) := by
    rw [← List.forall₂_eq_eq_eq, List.forall₂_map_left_iff, List.forall₂_map_right_iff]
    exact hruns.imp fun _ _ hrun => hrun.parameter.symm
  rw [hsame, List.map_map]
  rfl

theorem processors_eq_nil {partitions : List String}
    (h : e.Implied label none capacity partitions) : e.processors = [] :=
  List.map_eq_nil_iff.mp (Except.ok.inj h.processors).symm

/-- No two processors of an entity watch one figure. -/
theorem nodup_parameters (h : e.Implied label t.rules capacity t.partitions) :
    (e.processors.map (·.parameter)).Nodup := by
  cases hrules : t.rules with
  | none =>
    rw [processors_eq_nil (hrules ▸ h)]
    exact List.nodup_nil
  | some rules =>
    obtain ⟨hvalid, hparameters⟩ := parameters (hrules ▸ h)
    rw [hparameters]
    exact RuleSet.nodup_parameters hvalid

/-- **The names of the figures that are watched** are distinct exactly if there is
no clash. -/
theorem nodup_names_iff (h : e.Implied label t.rules capacity t.partitions) :
    (e.processors.map (·.parameter.name)).Nodup ↔ ¬ t.Clashes := by
  cases hrules : t.rules with
  | none =>
    rw [processors_eq_nil (hrules ▸ h)]
    simp [Terms.Clashes, hrules]
  | some rules =>
    obtain ⟨hvalid, hparameters⟩ := parameters (hrules ▸ h)
    have hnames : e.processors.map (·.parameter.name) =
        (rules.applied t.partitions).map (·.parameter.name) := by
      have := congrArg (List.map Parameter.name) hparameters
      simpa only [List.map_map, Function.comp_def] using this
    rw [hnames, RuleSet.nodup_names_iff hvalid]
    simp [Terms.Clashes, hrules]

end Entity.Implied

namespace Monitor

variable {b : Blueprint} {a₀ : Answers} {m : Monitor}

/-- What an entity behind a run is registered with: the node what it was built with,
an instance what it was started with when it was registered. -/
def terms (b : Blueprint) (m : Monitor) (ops : List Operation) : EntityId → Option Terms
  | .node => some ⟨b.rulesInForce, m.capacity.partitions.map (·.name)⟩
  | .workload id => (live m.capacity id ops).map fun params =>
    ⟨params.rules, params.partitions.map (·.name)⟩

/-- The label in front of the names of the processors of an entity. -/
def labelOf : EntityId → String
  | .node => systemLabel
  | .workload id => id

/-- **Every entity of a run** is what its terms imply. -/
theorem implied_of_run (hm : (build b a₀).result = .ok m) (ops : List Operation)
    {entity : EntityId} {e : Entity} (he : (m.after ops).entity? entity = some e) :
    ∃ t, m.terms b ops entity = some t ∧
      e.Implied (labelOf entity) t.rules m.capacity t.partitions := by
  cases entity with
  | node =>
    cases he
    refine ⟨_, rfl, implied_system ?_ ops⟩
    obtain ⟨info, capacity, rules, processors, -, -, -, hrules, hprocessors, rfl⟩ := build_ok hm
    have hforce : rules = b.rulesInForce := askRules_ok hrules
    rw [buildSystem_result, hforce] at hprocessors
    exact Entity.implied_fresh hprocessors
  | workload id =>
    obtain ⟨i, hi, rfl⟩ := Option.map_eq_some_iff.mp he
    have hrel := rel_live (get?_of_build hm id) ops
    rw [hi] at hrel
    rw [terms]
    cases hlive : live m.capacity id ops with
    | none =>
      rw [hlive] at hrel
      cases hrel
    | some params =>
      rw [hlive] at hrel
      cases hrel with
      | some himplied => exact ⟨_, rfl, himplied⟩

/-! ### Alerts of a run -/

theorem alert_of_recordOf {entity : EntityId} {alert : Alert} {record : AlertRecord}
    (h : m.recordOf entity alert = some record) : record.alert = alert := by
  cases entity with
  | node =>
    cases h
    rfl
  | workload id =>
    obtain ⟨i, -, rfl⟩ := Option.map_eq_some_iff.mp h
    rfl

/-- An alert of a run is set off by a processor of an entity that is there. -/
theorem setsOff_of_sent {record : AlertRecord} {ops : List Operation}
    (h : record ∈ sentAlerts (m.effects ops)) :
    ∃ before a now behind entity p, ops = before ++ .poll a now :: behind ∧
      (m.after before).SetsOff entity a now p (some record.alert) ∧
      (m.after before).recordOf entity record.alert = some record := by
  rw [sentAlerts_effects] at h
  have hmem : record ∈ m.alertsOf ops := by
    split at h
    · exact h
    · cases h
  obtain ⟨before, a, now, behind, hops, hpoll⟩ := mem_alertsOf hmem
  obtain ⟨entity, p, alert, hset, hrecord⟩ := mem_pollAlerts hpoll
  rw [← alert_of_recordOf hrecord] at hset hrecord
  exact ⟨before, a, now, behind, entity, p, hops, hset, hrecord⟩

/-- **When an alert tells its processor.** No two processors of an entity watch one
figure, and the names of the figures that they watch are distinct exactly if no
partition with a rule is named like a fixed figure with a rule. Then the entity
and the figure's name of an alert that is sent belong to one processor alone,
that which has set it off. -/
theorem attribution_of_run (hm : (build b a₀).result = .ok m) (ops : List Operation) :
    (∀ (entity : EntityId) (e : Entity), (m.after ops).entity? entity = some e →
      ∃ t, m.terms b ops entity = some t ∧ (e.processors.map (·.parameter)).Nodup ∧
        ((e.processors.map (·.parameter.name)).Nodup ↔ ¬ t.Clashes)) ∧
    ∀ record ∈ sentAlerts (m.effects ops), ∃ before a now behind entity e t p,
      ops = before ++ .poll a now :: behind ∧ (m.after before).entity? entity = some e ∧
        m.terms b before entity = some t ∧
        (m.after before).recordOf entity record.alert = some record ∧
        p ∈ e.processors ∧ (m.after before).SetsOff entity a now p (some record.alert) ∧
        p.parameter.name = record.alert.parameter ∧
        (¬ t.Clashes → ∀ q ∈ e.processors, q.parameter.name = record.alert.parameter → q = p) := by
  constructor
  · intro entity e he
    obtain ⟨t, ht, himplied⟩ := implied_of_run hm ops he
    exact ⟨t, ht, himplied.nodup_parameters, himplied.nodup_names_iff⟩
  · intro record hrecord
    obtain ⟨before, a, now, behind, entity, p, hops, hset, hrecord⟩ := setsOff_of_sent hrecord
    have hname := (latest_of_setsOff hm before hset).1
    have ⟨e, row, he, hrow, hp, hcheck⟩ := hset
    obtain ⟨t, ht, himplied⟩ := implied_of_run hm before he
    refine ⟨before, a, now, behind, entity, e, t, p, hops, he, ht, hrecord, hp, hset, hname.symm,
      fun hapart q hq hsame => ?_⟩
    have hnodup := himplied.nodup_names_iff.mpr hapart
    exact List.inj_on_of_nodup_map hnodup hq hp (hsame.trans hname)

/-- An instance with a partition that is named like the RAM, and a rule for each. -/
def ambiguous : InstanceParams where
  ident := { service := "worker" }
  rules := some
    { ram := some (.absolute { min := 400, max := 500 })
      partitions := [⟨"ram", .absolute { min := 3, max := 4 }⟩] }
  partitions := [⟨"ram", "/ram"⟩]

/-- The alert of the worker belongs to a processor of its RAM. The worker has no other one of
that name, and the instance with the partition has two. -/
theorem attribution_of_run_twoPolls :
    (∃ before a now behind entity e p, twoPolls = before ++ .poll a now :: behind ∧
      (smallMonitor.after before).entity? entity = some e ∧ p ∈ e.processors ∧
      (smallMonitor.after before).SetsOff entity a now p
        (some ⟨⟨2000, false⟩, "ram", 600, .continues⟩) ∧
      p.parameter.name = "ram") ∧
    (∃ e, (smallMonitor.after [.start "a" worker]).entity? (.workload "a") = some e ∧
      (e.processors.map (·.parameter.name)).Nodup) ∧
    ∃ e, (smallMonitor.after [.start "a" ambiguous]).entity? (.workload "a") = some e ∧
      ¬ (e.processors.map (·.parameter.name)).Nodup := by
  refine ⟨?_, ⟨_, rfl, ?_⟩, _, rfl, ?_⟩
  · obtain ⟨before, a, now, behind, entity, e, t, p, hops, he, -, -, hp, hset, hname, -⟩ :=
      (attribution_of_run build_smallNode twoPolls).2
        (.workload worker.ident ⟨⟨2000, false⟩, "ram", 600, .continues⟩) (by decide +kernel)
    exact ⟨before, a, now, behind, entity, e, p, hops, he, hp, hset, hname⟩
  · obtain ⟨t, ht, -, hiff⟩ :=
      (attribution_of_run build_smallNode [.start "a" worker]).1 (.workload "a") _ rfl
    obtain rfl : ⟨worker.rules, ["home"]⟩ = t := Option.some.inj ht
    refine hiff.mpr ?_
    rintro ⟨rules, hrules, p, hp, -⟩
    cases hrules
    cases hp
  · obtain ⟨t, ht, -, hiff⟩ :=
      (attribution_of_run build_smallNode [.start "a" ambiguous]).1 (.workload "a") _ rfl
    obtain rfl : ⟨ambiguous.rules, ["ram"]⟩ = t := Option.some.inj ht
    exact fun hnodup => hiff.mp hnodup
      ⟨_, rfl, _, List.mem_singleton.mpr rfl, List.mem_singleton.mpr rfl, by decide⟩

/-- The figure's name of an alert can belong to two processors of one instance: a partition
that is named like the RAM passes. -/
theorem not_nodup_names : ¬ ∀ (b : Blueprint) (a₀ : Answers) (m : Monitor)
    (ops : List Operation) (entity : EntityId) (e : Entity),
    (build b a₀).result = .ok m → (m.after ops).entity? entity = some e →
      (e.processors.map (·.parameter.name)).Nodup := by
  intro h
  have hnodup := h smallNode _ smallMonitor [.start "a" ambiguous] (.workload "a") _
    build_smallNode rfl
  exact absurd hnodup (by decide +kernel)

end Monitor

end QuotaWatch
