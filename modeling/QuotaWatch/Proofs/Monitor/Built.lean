/-
# What a built monitor starts with

A build that succeeds went through all its parts (`Monitor.build_ok`), and what
it gives is the initial monitor over the processors that its rules imply. Each of
these is a fresh processor made from one rule that is not skipped: its thresholds
are apart, and it watches a figure that the entity is measured on (`implied_ok`).
Where the rules imply none, one of them is at fault (`implied_error`). What polls keep
of fresh entities holds in every run (`Monitor.entity_of_run`). A small node is built for
the examples.

Key definitions: `Parameter.IsAmong`, `Processor.IsFresh`, `implied`, `impliedNames`,
`Fault.IsOfRule`, `Monitor.smallNode`.
Key theorems: `Attempt.bind_result_ok`, `Monitor.build_ok`, `implied_ok`, `implied_error`,
`Monitor.entity_of_run`.
-/
import QuotaWatch.Proofs.Monitor.Run

namespace QuotaWatch

namespace Attempt

variable {α β : Type}

/-- Work in two parts succeeds where both parts do. -/
theorem bind_result_ok {a : Attempt α} {f : α → Attempt β} {y : β} :
    (a >>= f).result = .ok y ↔ ∃ x, a.result = .ok x ∧ (f x).result = .ok y := by
  cases h : a.result with
  | ok x => simp [bind_ok f h]
  | error fault => simp [bind_error f h]

/-- Work in two parts fails with the fault of the part that fails. -/
theorem bind_result_error {a : Attempt α} {f : α → Attempt β} {fault : Fault}
    (h : (a >>= f).result = .error fault) :
    a.result = .error fault ∨ ∃ x, a.result = .ok x ∧ (f x).result = .error fault := by
  cases hr : a.result with
  | ok x =>
    rw [bind_ok f hr] at h
    exact Or.inr ⟨x, rfl, h⟩
  | error e =>
    rw [bind_error f hr] at h
    cases h
    exact Or.inl rfl

/-- The effects of work in two parts: those of the second part come last, if it is done. -/
theorem mem_bind_events {a : Attempt α} {f : α → Attempt β} {event : Event}
    (h : event ∈ (a >>= f).events) :
    event ∈ a.events ∨ ∃ x, a.result = .ok x ∧ event ∈ (f x).events := by
  cases hr : a.result with
  | ok x =>
    rw [bind_ok f hr] at h
    rcases List.mem_append.mp h with h | h
    · exact Or.inl h
    · exact Or.inr ⟨x, rfl, h⟩
  | error fault =>
    rw [bind_error f hr] at h
    exact Or.inl h

end Attempt

/-! ### Processors from rules -/

/-- Whether a parameter is a figure of an entity measured on these partitions. -/
def Parameter.IsAmong (partitions : List String) : Parameter → Prop
  | .partition name => name ∈ partitions
  | _ => True

/-- A processor whose detector has seen nothing yet. -/
def Processor.IsFresh (p : Processor) : Prop :=
  p.detector = { thresholds := p.detector.thresholds }

theorem Processor.isFresh_fresh (name : String) (parameter : Parameter) (t : Thresholds) :
    (Processor.fresh name parameter t).IsFresh := rfl

/-- Every processor is made from an assignment. -/
theorem mem_buildEach (entity : String) : ∀ (as : List Assignment) (ps : List Processor),
    (buildEach entity as).result = .ok ps → ∀ p ∈ ps, ∃ label parameter rule capacity t,
      .build label parameter rule capacity ∈ as ∧
        rule.resolve parameter.name capacity = .ok t ∧
        p = Processor.fresh (entity ++ " " ++ label) parameter t
  | [], ps, h, p, hp => by
    cases h
    cases hp
  | .skip partition :: rest, ps, h, p, hp => by
    obtain ⟨_, -, h⟩ := Attempt.bind_result_ok.mp h
    obtain ⟨label, parameter, rule, capacity, t, hmem, hfresh⟩ :=
      mem_buildEach entity rest ps h p hp
    exact ⟨label, parameter, rule, capacity, t, List.mem_cons_of_mem _ hmem, hfresh⟩
  | .build label parameter rule capacity :: rest, ps, h, p, hp => by
    obtain ⟨t, ht, h⟩ := Attempt.bind_result_ok.mp h
    obtain ⟨qs, hqs, h⟩ := Attempt.bind_result_ok.mp h
    cases h
    rcases List.mem_cons.mp hp with rfl | hp
    · exact ⟨label, parameter, rule, capacity, t, List.mem_cons_self, ht, rfl⟩
    · obtain ⟨label', parameter', rule', capacity', t', hmem, hfresh⟩ :=
        mem_buildEach entity rest qs hqs p hp
      exact ⟨label', parameter', rule', capacity', t', List.mem_cons_of_mem _ hmem, hfresh⟩

theorem RuleSet.parameter_of_mem_assignOne {label label' : String}
    {parameter parameter' : Parameter} {rule : Rule} {bound bound' : Option UInt64}
    {rule? : Option Rule}
    (h : .build label parameter rule bound ∈ assignOne label' parameter' bound' rule?) :
    parameter = parameter' := by
  cases rule? with
  | none => cases h
  | some rule' =>
    cases List.mem_singleton.mp h
    rfl

/-- A rule becomes a processor only for a figure that the entity is measured on. -/
theorem RuleSet.isAmong_of_mem {rules : RuleSet} {capacity : Capacity} {partitions : List String}
    {label : String} {parameter : Parameter} {rule : Rule} {bound : Option UInt64}
    (h : .build label parameter rule bound ∈ rules.assignments capacity partitions) :
    parameter.IsAmong partitions := by
  simp only [assignments, List.mem_append, List.mem_map] at h
  rcases h with (((h | h) | ⟨p, -, h⟩) | h) | h
  · rw [parameter_of_mem_assignOne h]
    trivial
  · rw [parameter_of_mem_assignOne h]
    trivial
  · unfold assignPartition at h
    split at h
    · rename_i hname
      cases h
      exact hname
    · cases h
  · rw [parameter_of_mem_assignOne h]
    trivial
  · rw [parameter_of_mem_assignOne h]
    trivial

/-- The processors that the rules of an entity imply. Without rules there are none. -/
def implied (label : String) (rules : Option RuleSet) (capacity : Capacity)
    (partitions : List String) : Except Fault (List Processor) :=
  match rules with
  | none => .ok []
  | some rules => (buildProcessors label rules capacity partitions).result

/-- The names of these processors: one for every rule that is not skipped. -/
def impliedNames (label : String) (rules : Option RuleSet) (capacity : Capacity)
    (partitions : List String) : List String :=
  rules.elim [] fun rules =>
    (rules.assignments capacity partitions).filterMap (·.processorName? label)

/-- Implied processors have the names of their rules. They are fresh, their thresholds are
apart, and they watch figures that the entity is measured on. -/
theorem implied_ok {label : String} {rules : Option RuleSet} {capacity : Capacity}
    {partitions : List String} {ps : List Processor}
    (h : implied label rules capacity partitions = .ok ps) :
    ps.map (·.name) = impliedNames label rules capacity partitions ∧
      ∀ p ∈ ps, p.IsFresh ∧ p.detector.thresholds.low < p.detector.thresholds.high ∧
        p.parameter.IsAmong partitions := by
  cases rules with
  | none =>
    cases h
    exact ⟨rfl, fun p hp => absurd hp List.not_mem_nil⟩
  | some rules =>
    obtain ⟨_, -, heach⟩ := Attempt.bind_result_ok.mp h
    refine ⟨buildEach_names label _ ps heach, fun p hp => ?_⟩
    obtain ⟨_, parameter, rule, bound, t, hmem, hresolve, rfl⟩ :=
      mem_buildEach label _ ps heach p hp
    exact ⟨Processor.isFresh_fresh _ _ _, Rule.low_lt_high_of_resolve hresolve,
      RuleSet.isAmong_of_mem hmem⟩

/-- A note about the registration of an instance or about its rules. -/
def Notice.isRegistration : Notice → Bool
  | .instanceStarted _ _ _ | .instanceStopped _ _ | .instanceKnown _ | .instanceNotKnown _
  | .ruleSkipped _ _ => true
  | _ => false

/-- Building processors only makes notes about rules. -/
theorem buildEach_events (entity : String) : ∀ (as : List Assignment),
    ∀ event ∈ (buildEach entity as).events,
      ∃ notice, event = .noted notice ∧ notice.isRegistration = true
  | [], event, h => by cases h
  | .skip partition :: rest, event, h => by
    rcases Attempt.mem_bind_events h with h | ⟨_, -, h⟩
    · exact ⟨_, List.mem_singleton.mp h, rfl⟩
    · exact buildEach_events entity rest event h
  | .build label parameter rule capacity :: rest, event, h => by
    rcases Attempt.mem_bind_events h with h | ⟨t, -, h⟩
    · cases h
    · rcases Attempt.mem_bind_events h with h | ⟨ps, -, h⟩
      · exact buildEach_events entity rest event h
      · cases h

theorem buildProcessors_events {entity : String} {rules : RuleSet} {capacity : Capacity}
    {partitions : List String} {event : Event}
    (h : event ∈ (buildProcessors entity rules capacity partitions).events) :
    ∃ notice, event = .noted notice ∧ notice.isRegistration = true := by
  rcases Attempt.mem_bind_events h with h | ⟨_, -, h⟩
  · cases h
  · exact buildEach_events entity _ event h

/-! ### Faults of rules -/

/-- The fault is about a rule. -/
def Fault.IsOfRule (fault : Fault) : Prop := ∃ parameter flaw, fault = .invalidRule parameter flaw

/-- Work in two parts fails with a fault of the first part or of the second. -/
theorem bind_eq_error {α β : Type} {x : Except Fault α} {f : α → Except Fault β} {fault : Fault}
    (h : (x >>= f) = .error fault) :
    x = .error fault ∨ ∃ a, x = .ok a ∧ f a = .error fault := by
  cases x with
  | error e =>
    cases h
    exact Or.inl rfl
  | ok a => exact Or.inr ⟨a, rfl, h⟩

theorem Rule.isOfRule_validate {r : Rule} {parameter : String} {fault : Fault}
    (h : r.validate parameter = .error fault) : fault.IsOfRule := by
  unfold validate at h
  split at h
  · cases h
    exact ⟨_, _, rfl⟩
  · cases h

theorem Rule.isOfRule_resolve {r : Rule} {parameter : String} {capacity : Option UInt64}
    {fault : Fault} (h : r.resolve parameter capacity = .error fault) : fault.IsOfRule := by
  rcases bind_eq_error h with h | ⟨_, -, h⟩
  · exact isOfRule_validate h
  · split at h
    · cases h
      exact ⟨_, _, rfl⟩
    · split at h
      · cases h
      · cases h
        exact ⟨_, _, rfl⟩

theorem RuleSet.isOfRule_validatePartitions {fault : Fault} : ∀ {seen : List String}
    {ps : List PartitionRule}, validatePartitions seen ps = .error fault → fault.IsOfRule
  | _, p :: ps, h => by
    unfold validatePartitions at h
    split at h
    · cases h
      exact ⟨_, _, rfl⟩
    · rcases bind_eq_error h with h | ⟨_, -, h⟩
      · exact Rule.isOfRule_validate h
      · exact isOfRule_validatePartitions h

theorem RuleSet.isOfRule_validate {rules : RuleSet} {fault : Fault}
    (h : rules.validate = .error fault) : fault.IsOfRule := by
  have hfor : ∀ {parameter : String} {rule? : Option Rule},
      validateFor parameter rule? = .error fault → fault.IsOfRule := by
    intro parameter rule? h
    cases rule? with
    | none => cases h
    | some rule => exact Rule.isOfRule_validate h
  have htraffic : ∀ {parameter : String} {rule? : Option Rule},
      validateTraffic parameter rule? = .error fault → fault.IsOfRule := by
    intro parameter rule? h
    cases rule? with
    | none => cases h
    | some rule =>
      unfold validateTraffic at h
      dsimp only at h
      split at h
      · cases h
        exact ⟨_, _, rfl⟩
      · exact Rule.isOfRule_validate h
  rcases bind_eq_error h with h | ⟨_, -, h⟩
  · exact hfor h
  rcases bind_eq_error h with h | ⟨_, -, h⟩
  · exact hfor h
  rcases bind_eq_error h with h | ⟨_, -, h⟩
  · exact isOfRule_validatePartitions h
  rcases bind_eq_error h with h | ⟨_, -, h⟩
  · exact htraffic h
  · exact htraffic h

theorem isOfRule_buildEach (entity : String) {fault : Fault} : ∀ {as : List Assignment},
    (buildEach entity as).result = .error fault → fault.IsOfRule
  | .skip partition :: rest, h => by
    rcases Attempt.bind_result_error h with h | ⟨_, -, h⟩
    · cases h
    · exact isOfRule_buildEach entity h
  | .build label parameter rule capacity :: rest, h => by
    rcases Attempt.bind_result_error h with h | ⟨t, -, h⟩
    · exact Rule.isOfRule_resolve h
    · rcases Attempt.bind_result_error h with h | ⟨ps, -, h⟩
      · exact isOfRule_buildEach entity h
      · cases h

/-- Where the rules of an entity imply no processors one of them is at fault. -/
theorem implied_error {label : String} {rules : Option RuleSet} {capacity : Capacity}
    {partitions : List String} {fault : Fault}
    (h : implied label rules capacity partitions = .error fault) : fault.IsOfRule := by
  cases rules with
  | none => cases h
  | some rules =>
    rcases Attempt.bind_result_error h with h | ⟨_, -, h⟩
    · exact RuleSet.isOfRule_validate h
    · exact isOfRule_buildEach label h
/-! ### Monitors and instances -/

namespace Monitor

/-- A build that succeeds has gone through all its parts. -/
theorem build_ok {b : Blueprint} {a : Answers} {m : Monitor} (h : (build b a).result = .ok m) :
    ∃ info capacity rules processors,
      b.settings.validate = .ok () ∧ (askNodeInfo b).result = .ok info ∧
        (Capacity.gather b.settings info a).result = .ok capacity ∧
        (askRules b).result = .ok rules ∧ (buildSystem rules capacity).result = .ok processors ∧
        m = initial b info.nodeId capacity processors := by
  obtain ⟨_, hvalid, h⟩ := Attempt.bind_result_ok.mp h
  obtain ⟨info, hinfo, h⟩ := Attempt.bind_result_ok.mp h
  obtain ⟨capacity, hcapacity, h⟩ := Attempt.bind_result_ok.mp h
  obtain ⟨rules, hrules, h⟩ := Attempt.bind_result_ok.mp h
  obtain ⟨processors, hprocessors, h⟩ := Attempt.bind_result_ok.mp h
  obtain ⟨_, -, h⟩ := Attempt.bind_result_ok.mp h
  cases h
  exact ⟨info, capacity, rules, processors, hvalid, hinfo, hcapacity, hrules, hprocessors, rfl⟩

theorem askNodeInfo_ok {b : Blueprint} {info : NodeInfo} (h : (askNodeInfo b).result = .ok info) :
    b.nodeInfo = some (.ok info) := by
  unfold askNodeInfo at h
  split at h
  · cases h
  · rename_i answer hanswer
    cases answer with
    | error fault => cases h
    | ok told =>
      cases h
      exact hanswer

theorem askRules_ok {b : Blueprint} {rules : Option RuleSet} (h : (askRules b).result = .ok rules) :
    rules = (b.nodeSettings.bind fun answer => answer.toOption.bind (·.rules)).or
      b.settings.rules := by
  unfold askRules at h
  split at h
  · rename_i hnone
    cases h
    rw [hnone]
    rfl
  · rename_i answer hanswer
    cases answer with
    | error fault => cases h
    | ok told =>
      cases h
      rw [hanswer]
      rfl

theorem buildSystem_result (rules : Option RuleSet) (capacity : Capacity) :
    (buildSystem rules capacity).result =
      implied systemLabel rules capacity (capacity.partitions.map (·.name)) := by
  cases rules <;> rfl

theorem buildInstance_result (m : Monitor) (id : String) (params : InstanceParams) :
    (m.buildInstance id params).result =
      implied id params.rules m.capacity (params.partitions.map (·.name)) := by
  unfold buildInstance implied
  cases params.rules <;> rfl

theorem buildInstance_events {m : Monitor} {id : String} {params : InstanceParams} {event : Event}
    (h : event ∈ (m.buildInstance id params).events) :
    ∃ notice, event = .noted notice ∧ notice.isRegistration = true := by
  unfold buildInstance at h
  split at h
  · cases h
  · exact buildProcessors_events h

/-- A start only makes notes about the registration. -/
theorem start_events {m : Monitor} {id : String} {params : InstanceParams} {event : Event}
    (h : event ∈ (m.start id params).events) :
    ∃ notice, event = .noted notice ∧ notice.isRegistration = true := by
  unfold start at h
  split at h
  · cases h
  · split at h
    · exact ⟨_, List.mem_singleton.mp h, rfl⟩
    · dsimp only at h
      split at h
      · exact buildInstance_events h
      · rcases List.mem_append.mp h with h | h
        · exact buildInstance_events h
        · exact ⟨_, List.mem_singleton.mp h, rfl⟩

/-- So does a stop. -/
theorem stop_events {m : Monitor} {id : String} {event : Event} (h : event ∈ (m.stop id).events) :
    ∃ notice, event = .noted notice ∧ notice.isRegistration = true := by
  unfold stop at h
  split at h <;> exact ⟨_, List.mem_singleton.mp h, rfl⟩

/-- A monitor that has just been built has no instances. -/
theorem get?_of_build {b : Blueprint} {a : Answers} {m : Monitor}
    (h : (build b a).result = .ok m) (id : String) : m.instances.get? id = none := by
  obtain ⟨info, capacity, rules, processors, -, -, -, -, -, rfl⟩ := build_ok h
  rfl

/-- What holds of an entity when it is registered, and is kept by the polls of a run, holds of
every entity behind the run. -/
theorem entity_of_run {b : Blueprint} {a₀ : Answers} {m : Monitor} {P : Entity → Prop}
    {ops : List Operation} (hm : (build b a₀).result = .ok m)
    (hfresh : ∀ partitions processors retention, (∀ p ∈ processors, p.IsFresh) →
      P (Entity.fresh partitions processors retention))
    (hpoll : ∀ e f a now, .poll a now ∈ ops → P e → P (e.poll f now))
    {entity : EntityId} {e : Entity} (he : (m.after ops).entity? entity = some e) : P e := by
  induction ops using List.reverseRecOn generalizing e with
  | nil =>
    obtain ⟨info, capacity, rules, processors, -, -, -, -, hprocessors, rfl⟩ := build_ok hm
    rw [buildSystem_result] at hprocessors
    cases entity with
    | node =>
      cases he
      exact hfresh _ _ _ fun p hp => ((implied_ok hprocessors).2 p hp).1
    | workload id => cases he
  | append_singleton ops op ih =>
    have hbefore : ∀ {e}, (m.after ops).entity? entity = some e → P e :=
      ih fun e f a now hmem => hpoll e f a now (List.mem_append_left _ hmem)
    rw [after_concat] at he
    rcases entity?_step he with ⟨a, now, before, f, rfl, hthere, rfl⟩ |
      ⟨id, params, processors, hbuilt, rfl⟩ | ⟨-, hthere⟩
    · exact hpoll before f a now (by simp) (hbefore hthere)
    · rw [buildInstance_result] at hbuilt
      exact hfresh _ _ _ fun p hp => ((implied_ok hbuilt).2 p hp).1
    · exact hbefore hthere

/-! ### A small node -/

/-- A node with one partition and a rule for its CPU. -/
def smallNode : Blueprint where
  settings :=
    { window := some (.ofMillis 60000)
      rules := some { cpu := some (.relative { min := 80, max := 90 }) } }
  nodeInfo := some (.ok
    { nodeId := "node0", cpus := 2, ram := 4000
      partitions := [{ name := "state", path := "/state", totalSize := 100 }] })
  watchesTraffic := true
  sendsAlerts := true

/-- Sources under a load of the CPU in percent. Every time they are asked an instance
uses 600 bytes more of the RAM, also where its source fails. -/
def underLoad (percent : Float) (fault : Option SourceFault) : Sources where
  cpus := 2
  cpuPercent := .ok percent
  memory := .ok ⟨4000, 1000⟩
  disk := fun _ => .ok ⟨100, 20⟩
  usage := fun _ usage => ({ usage with ram := usage.ram + 600 }, fault)
  owned := fun _ _ _ => .ok 7
  traffic := .nodeOnly (.ok (3, 4))

/-- The monitor of the small node. -/
def smallMonitor : Monitor :=
  initial smallNode "node0" ⟨2, 4000, [{ name := "state", path := "/state", totalSize := 100 }]⟩
    [Processor.fresh "System CPU" .cpu ⟨8000, 9000, .zero⟩]

theorem build_smallNode :
    (build smallNode (underLoad 10 none).answers).result = .ok smallMonitor := rfl

/-- An instance with one partition and a rule for its RAM. -/
def worker : InstanceParams where
  ident := { service := "worker" }
  uid := 5
  rules := some { ram := some (.absolute { min := 400, max := 500 }) }
  partitions := [⟨"home", "/home"⟩]

/-- A busy poll and a quiet one; at the quiet one the source of the instance fails. -/
def twoPolls : List Operation :=
  [.start "a" worker, .poll (underLoad 95 none).answers ⟨1000, false⟩,
    .poll (underLoad 10 (some (.backend "gone"))).answers ⟨2000, false⟩]

end Monitor

end QuotaWatch
