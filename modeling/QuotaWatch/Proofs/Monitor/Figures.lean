/-
# The figures of a run

An entity visits its sources at every poll while it is there. Of each source the
latest answer that did not fail counts: it is the figure of the entity until
there is a later one, and zero before there is any. A reading is therefore told
by the visits since the entity was registered (`nodeReading`, `workloadReading`),
and one visit more changes it as a poll does (`nodeReading_concat`,
`workloadReading_concat`).

Which questions a poll asks is told by the entities alone (`Monitor.probes`): no
answer keeps the poll from another question.

Key definitions: `latest`, `Visit`, `nodeReading`, `workloadReading`, `Monitor.probes`.
Key theorems: `nodeReading_concat`, `workloadReading_concat`, `Monitor.asked_pollEvents`,
`Monitor.figures_of_run`.
-/
import Mathlib.Data.List.ReduceOption
import QuotaWatch.Proofs.Monitor.Built

namespace QuotaWatch

open Time

/-! ### Latest answers -/

/-- The latest answer of those that were given. -/
def latest {α : Type} (answers : List (Option α)) : Option α := answers.reduceOption.getLast?

theorem latest_concat {α : Type} (answers : List (Option α)) (answer : Option α) :
    latest (answers ++ [answer]) = answer.or (latest answers) := by
  unfold latest
  rw [List.reduceOption_append]
  cases answer with
  | none =>
    rw [List.reduceOption_cons_of_none, List.reduceOption_nil, List.append_nil, Option.none_or]
  | some value =>
    rw [List.reduceOption_cons_of_some, List.reduceOption_nil, List.getLast?_concat, Option.some_or]

/-- A figure that is missing leaves the value before it. -/
theorem getD_latest_concat {α : Type} (answers : List (Option α)) (answer : Option α) (d : α) :
    (latest (answers ++ [answer])).getD d = answer.getD ((latest answers).getD d) := by
  rw [latest_concat]
  cases answer <;> rfl

theorem getD_map_latest_concat {α β : Type} (f : α → β) (answers : List (Option α))
    (answer : Option α) (d : β) :
    ((latest (answers ++ [answer])).map f).getD d =
      (answer.map f).getD (((latest answers).map f).getD d) := by
  rw [latest_concat]
  cases answer <;> rfl

/-! ### Visits -/

/-- A poll as an entity takes part in it. -/
structure Visit where
  answers : Answers
  time : Timestamp
  /-- The usage that is filled in, of an instance. -/
  usage : InstanceUsage := {}

namespace Visit

variable (v : Visit)

/-- The CPU figure of the node. -/
def cpu : Option Figure := v.answers.cpuPercent.toOption.map cpuFigure

/-- The RAM figure of the node. -/
def ram : Option Figure := v.answers.memory.toOption.map (·.used)

/-- The bytes used on a partition of the node. -/
def disk (position : ℕ) (path : OsPath) : Option Figure :=
  (v.answers.disk position path).toOption.map (·.used)

/-- The traffic of the node. -/
def nodeTraffic (watched : Bool) : Option (Figure × Figure) :=
  if watched then v.answers.nodeTraffic.toOption else none

/-- CPU and RAM of an instance. What a source wrote before it failed does not count. -/
def filled (id : String) : Option InstanceUsage :=
  match v.answers.usage id v.usage with
  | (usage, none) => some usage
  | (_, some _) => none

/-- The bytes that the owner of an instance uses on a partition. -/
def owned (id : String) (position : ℕ) (path : OsPath) (uid gid : UInt32) : Option Figure :=
  (v.answers.owned id position path uid gid).toOption

/-- The traffic of an instance. -/
def instanceTraffic (id : String) (watched : Bool) : Option (Figure × Figure) :=
  if watched && v.answers.hasInstanceCounters id then (v.answers.instanceTraffic id).toOption
  else none

end Visit

/-- The time of the latest visit. -/
def latestTime (visits : List Visit) : Timestamp := (visits.getLast?.map (·.time)).getD .epoch

theorem latestTime_concat (visits : List Visit) (v : Visit) :
    latestTime (visits ++ [v]) = v.time := by
  rw [latestTime, List.getLast?_concat]
  rfl

/-- The reading of the node that its visits call for. -/
def nodeReading (partitions : List PartitionInfo) (watched : Bool) (visits : List Visit) :
    Reading :=
  { cpu := (latest (visits.map (·.cpu))).getD 0
    ram := (latest (visits.map (·.ram))).getD 0
    partitions := partitions.mapIdx fun position p =>
      ⟨p.name, (latest (visits.map (·.disk position p.path))).getD 0⟩
    inTraffic := ((latest (visits.map (·.nodeTraffic watched))).map (·.1)).getD 0
    outTraffic := ((latest (visits.map (·.nodeTraffic watched))).map (·.2)).getD 0
    timestamp := latestTime visits }

/-- The usage of an instance that its visits call for. -/
def workloadUsage (id : String) (visits : List Visit) : InstanceUsage :=
  (latest (visits.map (·.filled id))).getD {}

/-- The reading of an instance that its visits call for. -/
def workloadReading (id : String) (params : InstanceParams) (watched : Bool)
    (visits : List Visit) : Reading :=
  { cpu := (workloadUsage id visits).cpu
    ram := (workloadUsage id visits).ram
    partitions := params.partitions.mapIdx fun position p =>
      ⟨p.name, (latest (visits.map (·.owned id position p.path params.uid params.gid))).getD 0⟩
    inTraffic := ((latest (visits.map (·.instanceTraffic id watched))).map (·.1)).getD 0
    outTraffic := ((latest (visits.map (·.instanceTraffic id watched))).map (·.2)).getD 0
    timestamp := latestTime visits }

/-! ### One visit more -/

/-- Figures that are fetched by position go to the partitions of the same position. -/
theorem refreshPartitions_mapIdx {α : Type} : ∀ (ps : List α) (usage : ℕ → α → PartitionUsage)
    (figure : ℕ → α → Option Figure),
    refreshPartitions (ps.mapIdx usage) (ps.mapIdx figure) =
      ps.mapIdx fun position p =>
        { usage position p with used := (figure position p).getD (usage position p).used }
  | [], _, _ => rfl
  | p :: ps, usage, figure => by
    simp only [List.mapIdx_cons, refreshPartitions]
    rw [refreshPartitions_mapIdx ps (fun k => usage (k + 1)) fun k => figure (k + 1)]

/-- Before the first visit every partition has the figure zero. -/
theorem zero_partitions {α : Type} (name : α → String) (ps : List α) :
    (Reading.zero (ps.map name)).partitions = ps.mapIdx fun _ p => ⟨name p, 0⟩ :=
  List.ext_getElem (by simp [Reading.zero]) (by simp [Reading.zero])

/-- The bytes used on the partitions come from the filesystems that hold their paths. -/
theorem systemFetches_partitions (m : Monitor) (a : Answers) (now : Timestamp) :
    (m.systemFetches a).partitions = m.capacity.partitions.mapIdx fun position p =>
      Visit.disk { answers := a, time := now } position p.path := by
  have hdisk : ∀ (position : ℕ) (p : PartitionInfo),
      ((a.disk position p.path).map (·.used)).toOption =
        (a.disk position p.path).toOption.map (·.used) := by
    intro position p
    cases a.disk position p.path <;> rfl
  simp only [Monitor.systemFetches, hdisk]
  rfl

theorem systemFetches_traffic (m : Monitor) (a : Answers) (now : Timestamp) :
    (m.systemFetches a).traffic =
      Visit.nodeTraffic { answers := a, time := now } m.watchesTraffic := by
  simp only [Monitor.systemFetches, Visit.nodeTraffic]
  cases m.watchesTraffic <;> rfl

/-- **One visit of the node more is one poll of it.** -/
theorem nodeReading_concat (m : Monitor) (visits : List Visit) (a : Answers) (now : Timestamp) :
    nodeReading m.capacity.partitions m.watchesTraffic (visits ++ [{ answers := a, time := now }]) =
      (nodeReading m.capacity.partitions m.watchesTraffic visits).refresh (m.systemFetches a)
        now := by
  have hparts := systemFetches_partitions m a now
  have htraffic := systemFetches_traffic m a now
  simp only [nodeReading, Reading.refresh, hparts, htraffic, List.map_append, List.map_cons,
    List.map_nil, getD_latest_concat, getD_map_latest_concat, latestTime_concat,
    refreshPartitions_mapIdx]
  rfl

/-- The usage behind one visit more, under any view of it. -/
theorem workloadUsage_concat {β : Type} (view : InstanceUsage → β) (id : String)
    (visits : List Visit) (v : Visit) :
    view (workloadUsage id (visits ++ [v])) =
      ((v.filled id).map view).getD (view (workloadUsage id visits)) := by
  rw [workloadUsage, List.map_append, List.map_cons, List.map_nil, getD_latest_concat,
    ← workloadUsage]
  cases v.filled id <;> rfl

/-- A poll of an instance takes over the usage that was filled in. -/
theorem usageAfter_eq (i : Instance) (id : String) (a : Answers) (now : Timestamp) :
    i.usageAfter a id = (Visit.filled ⟨a, now, i.usage⟩ id).getD i.usage := by
  unfold Instance.usageAfter Visit.filled
  rcases a.usage id i.usage with ⟨usage, _ | fault⟩ <;> rfl

/-- CPU and RAM come from the usage that was filled in. -/
theorem fetches_usage (i : Instance) (id : String) (a : Answers) (watched : Bool)
    (now : Timestamp) :
    (i.fetches a watched id).cpu = (Visit.filled ⟨a, now, i.usage⟩ id).map (·.cpu) ∧
      (i.fetches a watched id).ram = (Visit.filled ⟨a, now, i.usage⟩ id).map (·.ram) := by
  unfold Instance.fetches Visit.filled
  rcases a.usage id i.usage with ⟨usage, _ | fault⟩ <;> exact ⟨rfl, rfl⟩

/-- The bytes used on the partitions are those of the owner of the instance. -/
theorem fetches_partitions {i : Instance} {params : InstanceParams} (id : String) (a : Answers)
    (watched : Bool) (now : Timestamp) (huid : i.uid = params.uid) (hgid : i.gid = params.gid)
    (hpartitions : i.partitions = params.partitions) :
    (i.fetches a watched id).partitions = params.partitions.mapIdx fun position p =>
      Visit.owned ⟨a, now, i.usage⟩ id position p.path params.uid params.gid := by
  rw [← huid, ← hgid, ← hpartitions]
  rfl

/-- Traffic comes from the counters of the instance, where there are any. -/
theorem fetches_traffic (i : Instance) (id : String) (a : Answers) (watched : Bool)
    (now : Timestamp) : (i.fetches a watched id).traffic =
      Visit.instanceTraffic ⟨a, now, i.usage⟩ id watched := by
  simp only [Instance.fetches, Instance.traffic?, Visit.instanceTraffic]
  cases watched && a.hasInstanceCounters id <;> rfl

/-- **One visit of an instance more is one poll of it.** -/
theorem workloadReading_concat {i : Instance} {id : String} {params : InstanceParams}
    (watched : Bool) (visits : List Visit) (a : Answers) (now : Timestamp)
    (huid : i.uid = params.uid) (hgid : i.gid = params.gid)
    (hpartitions : i.partitions = params.partitions) :
    workloadReading id params watched (visits ++ [⟨a, now, i.usage⟩]) =
      (workloadReading id params watched visits).refresh (i.fetches a watched id) now := by
  obtain ⟨hcpu, hram⟩ := fetches_usage i id a watched now
  have hparts := fetches_partitions id a watched now huid hgid hpartitions
  have htraffic := fetches_traffic i id a watched now
  simp only [workloadReading, Reading.refresh, hcpu, hram, hparts, htraffic, List.map_append,
    List.map_cons, List.map_nil, workloadUsage_concat, getD_latest_concat, getD_map_latest_concat,
    latestTime_concat, refreshPartitions_mapIdx]

/-! ### Questions -/

/-- The question that an effect puts to a source. -/
def Event.probe? : Event → Option Probe
  | .asked probe => some probe
  | _ => none

/-- The questions that are asked, in order. -/
def asked (events : List Event) : List Probe := events.filterMap Event.probe?

theorem asked_append (xs ys : List Event) : asked (xs ++ ys) = asked xs ++ asked ys :=
  List.filterMap_append

theorem asked_flatMap {β : Type} (l : List β) (f : β → List Event) :
    asked (l.flatMap f) = l.flatMap fun x => asked (f x) := List.filterMap_flatMap

/-- Failures are told of besides the questions; all questions are asked. -/
theorem Fetches.asked_events (f : Fetches) (entity : String) :
    asked (f.events entity) = f.questions.map (·.1) := by
  rw [events, asked_flatMap, ← List.flatMap_pure_eq_map]
  refine List.flatMap_congr ?_
  rintro ⟨probe, _ | ⟨parameter, fault⟩⟩ - <;> rfl

namespace Monitor

/-- The questions of a poll about the node. -/
def systemProbes (m : Monitor) : List Probe :=
  [.cpuPercent, .memory] ++ m.capacity.partitions.map (.disk ·.path) ++
    if m.watchesTraffic then [.nodeTraffic] else []

/-- The questions of a poll about an instance. -/
def instanceProbes (m : Monitor) (a : Answers) (id : String) (i : Instance) : List Probe :=
  .usage id :: i.partitions.map (fun p => .owned p.path i.uid i.gid) ++
    if m.watchesTraffic && a.hasInstanceCounters id then [.instanceTraffic id] else []

/-- The questions of a poll: one for every figure of every entity. -/
def probes (m : Monitor) (a : Answers) : List Probe :=
  .prefetch :: m.systemProbes ++
    m.instances.entries.flatMap fun (id, i) => m.instanceProbes a id i

/-- The questions about partitions do not depend on the answers to them. -/
theorem map_fst_mapIdx {α β γ : Type} (question : α → β) (failure : ℕ → α → γ) (l : List α) :
    (l.mapIdx fun position p => (question p, failure position p)).map (·.1) = l.map question :=
  List.ext_getElem (by simp) (by simp)

theorem asked_systemFetches (m : Monitor) (a : Answers) :
    asked ((m.systemFetches a).events systemName) = m.systemProbes := by
  rw [Fetches.asked_events, systemFetches, systemProbes]
  cases m.watchesTraffic <;>
    simp only [List.map_cons, List.map_append, map_fst_mapIdx] <;> rfl

theorem asked_fetches (m : Monitor) (a : Answers) (id : String) (i : Instance) :
    asked ((i.fetches a m.watchesTraffic id).events id) = m.instanceProbes a id i := by
  rw [Fetches.asked_events, Instance.fetches, Instance.traffic?, instanceProbes]
  cases m.watchesTraffic && a.hasInstanceCounters id <;>
    simp only [List.map_cons, List.map_append, map_fst_mapIdx] <;> rfl

/-- Alerts ask nothing. -/
theorem asked_alerts (m : Monitor) (alerts : List (String × Alert))
    (notice : String → Alert → Notice) (record : Alert → AlertRecord) :
    asked (alerts.flatMap fun (name, alert) =>
      m.alertEvents (notice name alert) (record alert)) = [] := by
  rw [asked_flatMap, List.flatMap_eq_nil_iff]
  rintro ⟨name, alert⟩ -
  unfold alertEvents
  cases m.sendsAlerts <;> rfl

/-- **Every question of a poll is asked**, whatever the answers to the others. -/
theorem asked_pollEvents (m : Monitor) (a : Answers) (now : Timestamp) :
    asked (m.pollEvents a now) = m.probes a := by
  have hinstances : asked (m.instances.entries.flatMap fun (id, i) =>
      m.instanceAlertEvents a now id i) = [] := by
    rw [asked_flatMap, List.flatMap_eq_nil_iff]
    rintro ⟨id, i⟩ -
    exact m.asked_alerts _ (fun name => .instanceAlert name i.ident) (.workload i.ident)
  have hnode : asked (m.systemAlertEvents a now) = [] :=
    m.asked_alerts _ .systemAlert (.system m.nodeId)
  have hfetch : asked (m.fetchEvents a) = m.probes a := by
    unfold fetchEvents
    rw [List.cons_append, ← List.singleton_append, asked_append, asked_append,
      asked_systemFetches, asked_flatMap]
    simp only [asked_fetches]
    rfl
  unfold pollEvents
  rw [asked_append, asked_append, asked_append, hfetch, hnode, hinstances, List.append_nil,
    List.append_nil]
  exact List.append_nil _

/-! ### The figures of a run -/

/-- The visit of an entity to its sources at a poll, if it is there. -/
def visit? (entity : EntityId) (m : Monitor) (a : Answers) (now : Timestamp) : Option Visit :=
  match entity with
  | .node => some ⟨a, now, {}⟩
  | .workload id => (m.instances.get? id).map fun i => ⟨a, now, i.usage⟩

/-- The visits of an entity in a run since it was registered. -/
def visits (entity : EntityId) (m : Monitor) (ops : List Operation) : List Visit :=
  since entity (visit? entity) m ops

/-- What the visits of an instance since its registration say about its record. -/
structure Told (id : String) (watched : Bool) (params : InstanceParams) (i : Instance)
    (visits : List Visit) : Prop where
  ident : i.ident = params.ident
  uid : i.uid = params.uid
  gid : i.gid = params.gid
  partitions : i.partitions = params.partitions
  reading : i.entity.reading = workloadReading id params watched visits
  usage : i.usage = workloadUsage id visits

theorem told_fresh (id : String) (watched : Bool) (params : InstanceParams)
    (processors : List Processor) (retention : Option Span) :
    Told id watched params (Instance.fresh params processors retention) [] where
  ident := rfl
  uid := rfl
  gid := rfl
  partitions := rfl
  reading := by
    have hzero := zero_partitions (·.name) params.partitions
    unfold Instance.fresh Entity.fresh workloadReading
    exact congrArg (fun usages => ({ partitions := usages } : Reading)) hzero
  usage := rfl

theorem told_poll {id : String} {watched : Bool} {params : InstanceParams} {i : Instance}
    {visits : List Visit} (h : Told id watched params i visits) (a : Answers) (now : Timestamp) :
    Told id watched params (i.poll a watched id now) (visits ++ [⟨a, now, i.usage⟩]) where
  ident := h.ident
  uid := h.uid
  gid := h.gid
  partitions := h.partitions
  reading := by
    rw [workloadReading_concat watched visits a now h.uid h.gid h.partitions, ← h.reading]
    rfl
  usage := by
    rw [show (i.poll a watched id now).usage = i.usageAfter a id from rfl,
      usageAfter_eq i id a now, workloadUsage_concat fun usage => usage, ← h.usage, Option.map_id']

/-- The visits of the node say what it reads. -/
theorem reading_visits_node {b : Blueprint} {a₀ : Answers} {m : Monitor}
    (hm : (build b a₀).result = .ok m) (ops : List Operation) :
    (m.after ops).system.reading =
      nodeReading m.capacity.partitions m.watchesTraffic (m.visits .node ops) := by
  obtain ⟨info, capacity, rules, processors, -, -, -, -, -, rfl⟩ := build_ok hm
  refine since_node (P := fun e visits =>
    e.reading = nodeReading capacity.partitions b.watchesTraffic visits)
    (fun _ _ _ => rfl) ?_ ?_ ops
  · have hzero := zero_partitions (·.name) capacity.partitions
    exact congrArg (fun usages => ({ partitions := usages } : Reading)) hzero
  · intro m' a now visits hmake h
    have hconcat := nodeReading_concat m' visits a now
    rw [hmake.capacity, hmake.watchesTraffic] at hconcat
    exact (congrArg (·.refresh (m'.systemFetches a) now) h).trans hconcat.symm

/-- The visits of an instance since its registration say what its record is. -/
theorem told_visits {b : Blueprint} {a₀ : Answers} {m : Monitor}
    (hm : (build b a₀).result = .ok m) (ops : List Operation) {id : String} {i : Instance}
    (hi : (m.after ops).instances.get? id = some i) :
    ∃ params, registeredWith id m ops = some params ∧
      Told id m.watchesTraffic params i (m.visits (.workload id) ops) := by
  refine since_workload (P := Told id m.watchesTraffic) (fun _ _ _ => rfl) (get?_of_build hm id)
    ?_ ?_ ops hi
  · exact fun m' params processors _ _ => told_fresh id _ params processors m'.settings.window
  · intro m' a now params i visits hmake h
    rw [hmake.watchesTraffic]
    exact told_poll h a now

/-- **The figures of a run.** Every figure of the node and of a registered instance is
the latest answer that did not fail, of its own source since the entity was
registered, and zero where there is none. The partitions are those that the
entity was registered with, each with the answers for its own path and for the
owner of the instance. A poll asks for every figure of every entity, whatever
the answers are, and leaves its time on every reading. -/
theorem figures_of_run {b : Blueprint} {a₀ : Answers} {m : Monitor}
    (hm : (build b a₀).result = .ok m) (ops : List Operation) :
    (m.after ops).system.reading =
        nodeReading m.capacity.partitions m.watchesTraffic (m.visits .node ops) ∧
      (∀ (id : String) (i : Instance), (m.after ops).instances.get? id = some i →
        ∃ params, registeredWith id m ops = some params ∧
          Told id m.watchesTraffic params i (m.visits (.workload id) ops)) ∧
      ∀ (a : Answers) (now : Timestamp),
        asked ((m.after ops).step (.poll a now)).2 = (m.after ops).probes a ∧
          ∀ (entity : EntityId) (e : Entity),
            (m.after (ops ++ [.poll a now])).entity? entity = some e →
              e.reading.timestamp = now := by
  refine ⟨reading_visits_node hm ops, fun id i hi => told_visits hm ops hi, fun a now => ?_⟩
  refine ⟨asked_pollEvents _ a now, fun entity e he => ?_⟩
  rw [after_concat] at he
  cases entity with
  | node =>
    cases he
    rfl
  | workload id =>
    obtain ⟨i, hi, rfl⟩ := Option.map_eq_some_iff.mp he
    rw [step, get?_poll, Option.map_eq_some_iff] at hi
    obtain ⟨i, -, rfl⟩ := hi
    rfl

/-- At the second poll of the small node the source of the instance adds to the RAM
and fails: the figures of the first poll stay. -/
theorem figures_of_run_twoPolls :
    (smallMonitor.after twoPolls).system.reading =
        ⟨1000, 1000, [⟨"state", 20⟩], 3, 4, ⟨2000, false⟩⟩ ∧
      ∃ i, (smallMonitor.after twoPolls).instances.get? "a" = some i ∧ i.usage = { ram := 600 } ∧
        i.entity.reading = ⟨0, 600, [⟨"home", 7⟩], 0, 0, ⟨2000, false⟩⟩ := by
  have h := figures_of_run build_smallNode twoPolls
  obtain ⟨params, hreg, htold⟩ := h.2.1 "a" _ rfl
  cases hreg
  refine ⟨h.1.trans (by decide +kernel), _, rfl, htold.usage.trans (by decide +kernel), ?_⟩
  exact htold.reading.trans (by decide +kernel)

end Monitor

end QuotaWatch
