/-
# Alerts and what was measured

Before anything is fetched every figure of a reading is zero. No alert is ever about
such a zero: an alert carries the latest figure that was fetched of its parameter
since the entity was registered.

Three things make this so. The thresholds that a rule resolves to are apart, so the
upper one is above zero. A detector is raised first, and only by a value that reaches
the upper threshold (`Detector.raised_or_le_of_check`). And a reading shows zero
until the first fetch that succeeds (`tells_node`, `tells_workload`). So behind every
poll the figure of a raised detector has been fetched (`Entity.Measured.poll`).

Key definitions: `Visit.nodeFigure`, `Visit.workloadFigure`, `Tells`, `Entity.Measured`,
`Monitor.fetchedOf`, `Monitor.SetsOff`.
Key theorems: `Entity.Measured.poll`, `Entity.Measured.value`, `Monitor.mem_pollAlerts`,
`Monitor.latest_of_setsOff`, `Monitor.measured_of_sent`.
-/
import QuotaWatch.Proofs.Monitor.Figures
import QuotaWatch.Proofs.Monitor.Rules

namespace QuotaWatch

open Time

/-! ### Detectors -/

namespace Detector

/-- A detector that reports or is raised behind a check was raised before it, or the value
reaches the upper threshold. -/
theorem raised_or_le_of_check {d : Detector} {now : Timestamp} {value : Figure}
    (h : (d.check now value).2.isSome = true ∨ (d.check now value).1.isRaised = true) :
    d.isRaised = true ∨ d.thresholds.high ≤ value := by
  cases hs : d.state with
  | raised lastNotified belowSince =>
    left
    rw [isRaised, hs]
  | normal crossedAt =>
    right
    rw [check, isRaised, hs, step] at h
    rcases checkNormal_cases d.thresholds crossedAt now value with
      ⟨-, he⟩ | ⟨hhigh, -, -⟩ | ⟨hhigh, -, -⟩
    · rw [he] at h
      rcases h with h | h <;> cases h
    · exact hhigh
    · exact hhigh

end Detector

/-! ### What a visit fetches of a parameter -/

/-- The first partition of a name, with its position. -/
def firstNamed {α : Type} (name : α → String) (ps : List α) (wanted : String) : Option (α × ℕ) :=
  ps.zipIdx.find? fun e => name e.1 == wanted

namespace Visit

/-- What the visit of the node fetches of a parameter. -/
def nodeFigure (partitions : List PartitionInfo) (watched : Bool) (parameter : Parameter)
    (v : Visit) : Option Figure :=
  match parameter with
  | .cpu => v.cpu
  | .ram => v.ram
  | .partition name =>
    (firstNamed (·.name) partitions name).bind fun (p, position) => v.disk position p.path
  | .inTraffic => (v.nodeTraffic watched).map (·.1)
  | .outTraffic => (v.nodeTraffic watched).map (·.2)

/-- What the visit of an instance fetches of a parameter. -/
def workloadFigure (id : String) (params : InstanceParams) (watched : Bool)
    (parameter : Parameter) (v : Visit) : Option Figure :=
  match parameter with
  | .cpu => (v.filled id).map (·.cpu)
  | .ram => (v.filled id).map (·.ram)
  | .partition name =>
    (firstNamed (·.name) params.partitions name).bind fun (p, position) =>
      v.owned id position p.path params.uid params.gid
  | .inTraffic => (v.instanceTraffic id watched).map (·.1)
  | .outTraffic => (v.instanceTraffic id watched).map (·.2)

end Visit

theorem latest_map {α β γ : Type} (f : β → γ) (answer : α → Option β) (l : List α) :
    latest (l.map fun x => (answer x).map f) = (latest (l.map answer)).map f := by
  have hmaps : (l.map fun x => (answer x).map f) = (l.map answer).map (Option.map f) := by
    rw [List.map_map]
    rfl
  rw [latest, hmaps, List.reduceOption_map, List.getLast?_map, latest]

theorem isSome_latest_concat {α : Type} {answers : List (Option α)} (answer : Option α)
    (h : (latest answers).isSome = true) : (latest (answers ++ [answer])).isSome = true := by
  rw [latest_concat]
  cases answer with
  | none => rwa [Option.none_or]
  | some a => rfl

/-- A partition reads what stands at the position of the first one of its name. -/
theorem partitionUsed_mapIdx {α : Type} {name : α → String} {used : ℕ → α → Figure}
    {ps : List α} {r : Reading} (hr : r.partitions = ps.mapIdx fun k p => ⟨name p, used k p⟩)
    (wanted : String) :
    r.partitionUsed wanted = (firstNamed name ps wanted).map fun e => used e.2 e.1 := by
  rw [Reading.partitionUsed, hr, List.mapIdx_eq_zipIdx_map, List.find?_map, Option.map_map,
    firstNamed]
  rfl

/-! ### Readings tell what was fetched -/

/-- A reading that is called for by visits tells of every parameter the latest figure that
was fetched of it, and zero where there is none. -/
def Tells (reading : List Visit → Reading) (figure : Parameter → Visit → Option Figure) : Prop :=
  ∀ (visits : List Visit) (parameter : Parameter),
    parameter.IsAmong ((reading visits).partitions.map (·.name)) →
      parameter.read (reading visits) = some ((latest (visits.map (figure parameter))).getD 0)

/-- A partition tells the latest answer at the position of the first one of its name. -/
theorem partitionUsed_latest {α : Type} {name : α → String}
    {answer : ℕ → α → Visit → Option Figure} {ps : List α} {r : Reading} {visits : List Visit}
    (hr : r.partitions =
      ps.mapIdx fun k p => ⟨name p, (latest (visits.map (answer k p))).getD 0⟩)
    {wanted : String}
    (hamong : (Parameter.partition wanted).IsAmong (r.partitions.map (·.name))) :
    r.partitionUsed wanted = some ((latest (visits.map fun v =>
      (firstNamed name ps wanted).bind fun (p, k) => answer k p v)).getD 0) := by
  have hused := partitionUsed_mapIdx hr wanted
  have hsome : (r.partitionUsed wanted).isSome = true := Parameter.isSome_read hamong
  cases hfirst : firstNamed name ps wanted with
  | none =>
    rw [hused, hfirst] at hsome
    cases hsome
  | some e =>
    rw [hused, hfirst]
    rfl

theorem tells_node (partitions : List PartitionInfo) (watched : Bool) :
    Tells (nodeReading partitions watched) (Visit.nodeFigure partitions watched) := by
  intro visits parameter hamong
  cases parameter with
  | cpu => rfl
  | ram => rfl
  | partition name => exact partitionUsed_latest rfl hamong
  | inTraffic =>
    show some (((latest (visits.map (·.nodeTraffic watched))).map (·.1)).getD 0) = _
    rw [← latest_map]
    rfl
  | outTraffic =>
    show some (((latest (visits.map (·.nodeTraffic watched))).map (·.2)).getD 0) = _
    rw [← latest_map]
    rfl

theorem tells_workload (id : String) (params : InstanceParams) (watched : Bool) :
    Tells (workloadReading id params watched) (Visit.workloadFigure id params watched) := by
  intro visits parameter hamong
  -- CPU and RAM are zero in the usage that nothing has been filled into
  have husage : ∀ view : InstanceUsage → Figure, view {} = 0 →
      view (workloadUsage id visits) =
        (latest (visits.map fun v => (v.filled id).map view)).getD 0 := by
    intro view hzero
    rw [latest_map, workloadUsage]
    cases latest (visits.map (·.filled id)) with
    | none => exact hzero
    | some usage => rfl
  cases parameter with
  | cpu => exact congrArg some (husage (·.cpu) rfl)
  | ram => exact congrArg some (husage (·.ram) rfl)
  | partition name => exact partitionUsed_latest rfl hamong
  | inTraffic =>
    show some (((latest (visits.map (·.instanceTraffic id watched))).map (·.1)).getD 0) = _
    rw [← latest_map]
    rfl
  | outTraffic =>
    show some (((latest (visits.map (·.instanceTraffic id watched))).map (·.2)).getD 0) = _
    rw [← latest_map]
    rfl

/-! ### What has been measured of an entity -/

/-- An entity in step with its visits: its processors are implied by rules, its reading is
the one that the visits call for, and of every figure whose detector is raised one has
been fetched. -/
structure Entity.Measured (reading : List Visit → Reading)
    (figure : Parameter → Visit → Option Figure) (e : Entity) (visits : List Visit) : Prop where
  implied : ∃ label rules capacity partitions, e.Implied label rules capacity partitions
  reading : e.reading = reading visits
  fetched : ∀ p ∈ e.processors, p.detector.isRaised = true →
    (latest (visits.map (figure p.parameter))).isSome = true

namespace Entity.Measured

variable {reading : List Visit → Reading} {figure : Parameter → Visit → Option Figure} {e : Entity}
  {visits : List Visit} {v : Visit} {f : Fetches} {now : Timestamp}

/-- Nothing is raised that has seen nothing. -/
theorem fresh {label : String} {rules : Option RuleSet} {capacity : Capacity}
    {partitions : List String} {ps : List Processor} {retention : Option Span}
    (h : QuotaWatch.implied label rules capacity partitions = .ok ps)
    (hzero : Reading.zero partitions = reading []) :
    (Entity.fresh partitions ps retention).Measured reading figure [] := by
  refine ⟨⟨label, rules, capacity, partitions, Entity.implied_fresh h⟩, hzero, ?_⟩
  intro p hp hraised
  rw [((implied_ok h).2 p hp).1] at hraised
  cases hraised

variable (h : e.Measured reading figure visits) (htells : Tells reading figure)
  (hvisit : reading (visits ++ [v]) = (reading visits).refresh f now)
include h htells hvisit

/-- A processor reads the latest figure that was fetched, and it is above zero where the
detector reports or is raised: so one was fetched. -/
theorem check {p : Processor} (hp : p ∈ e.processors) :
    ∃ value,
      p.check (e.reading.refresh f now) =
        ({ p with detector := (p.detector.check now value).1 },
          (p.detector.check now value).2.map p.parameter.alert) ∧
      ((p.detector.check now value).2.isSome = true ∨
          (p.detector.check now value).1.isRaised = true →
        latest ((visits ++ [v]).map (figure p.parameter)) = some value) := by
  obtain ⟨label, rules, capacity, partitions, himplied⟩ := h.implied
  have hreading : e.reading.refresh f now = reading (visits ++ [v]) := by rw [hvisit, h.reading]
  have hamong : p.parameter.IsAmong ((reading (visits ++ [v])).partitions.map (·.name)) := by
    rw [← hreading, Reading.names_refresh, himplied.carried]
    exact himplied.among p hp
  have hread := htells (visits ++ [v]) p.parameter hamong
  rw [← hreading] at hread
  refine ⟨_, Processor.check_of_read hread, fun hon => ?_⟩
  have hsome : (latest ((visits ++ [v]).map (figure p.parameter))).isSome = true := by
    rcases Detector.raised_or_le_of_check hon with hraised | hhigh
    · rw [List.map_append]
      exact isSome_latest_concat _ (h.fetched p hp hraised)
    · cases hlatest : latest ((visits ++ [v]).map (figure p.parameter)) with
      | some value => rfl
      | none =>
        -- the upper threshold is above the lower one, and so above zero
        rw [hlatest] at hhigh
        have hzero := UInt64.lt_of_lt_of_le (himplied.apart p hp) hhigh
        exact absurd hzero UInt64.not_lt_zero
  obtain ⟨value, hvalue⟩ := Option.isSome_iff_exists.mp hsome
  rw [hvalue, Option.getD_some]

/-- **A poll keeps an entity in step with its visits.** -/
theorem poll : (e.poll f now).Measured reading figure (visits ++ [v]) := by
  refine ⟨?_, ?_, fun p' hp' => ?_⟩
  · obtain ⟨label, rules, capacity, partitions, himplied⟩ := h.implied
    exact ⟨label, rules, capacity, partitions, himplied.poll f now⟩
  · rw [Entity.reading_poll, h.reading, hvisit]
  · obtain ⟨p, hp, rfl⟩ := List.mem_map.mp hp'
    obtain ⟨value, hcheck, hvalue⟩ := h.check htells hvisit hp
    rw [hcheck]
    exact fun hraised => Option.isSome_of_eq_some (hvalue (Or.inr hraised))

/-- **An alert carries the latest figure that was fetched.** -/
theorem value {p : Processor} (hp : p ∈ e.processors) {alert : Alert}
    (halert : (p.check (e.reading.refresh f now)).2 = some alert) :
    alert.parameter = p.parameter.name ∧
      latest ((visits ++ [v]).map (figure p.parameter)) = some alert.value := by
  obtain ⟨value, hcheck, hvalue⟩ := h.check htells hvisit hp
  rw [hcheck, Option.map_eq_some_iff] at halert
  obtain ⟨alarm, halarm, rfl⟩ := halert
  refine ⟨rfl, ?_⟩
  rw [hvalue (Or.inl (Option.isSome_of_eq_some halarm))]
  exact congrArg some (Detector.mem_check halarm).2.symm

end Entity.Measured

namespace Monitor

/-! ### The entities of a run -/

variable {b : Blueprint} {a₀ : Answers} {m : Monitor}

/-- What was fetched of a parameter of an entity at each visit since it was registered. -/
def fetchedOf (entity : EntityId) (m : Monitor) (ops : List Operation) (parameter : Parameter) :
    List (Option Figure) :=
  match entity with
  | .node =>
    (m.visits .node ops).map (Visit.nodeFigure m.capacity.partitions m.watchesTraffic parameter)
  | .workload id => (registeredWith id m ops).elim [] fun params =>
    (m.visits (.workload id) ops).map (Visit.workloadFigure id params m.watchesTraffic parameter)

/-- The node is in step with its visits. -/
theorem measured_node (hm : (build b a₀).result = .ok m) (ops : List Operation) :
    (m.after ops).system.Measured (nodeReading m.capacity.partitions m.watchesTraffic)
      (Visit.nodeFigure m.capacity.partitions m.watchesTraffic) (m.visits .node ops) := by
  obtain ⟨info, capacity, rules, processors, -, -, -, -, hprocessors, rfl⟩ := build_ok hm
  refine since_node (P := Entity.Measured (nodeReading capacity.partitions b.watchesTraffic)
    (Visit.nodeFigure capacity.partitions b.watchesTraffic)) (fun _ _ _ => rfl) ?_ ?_ ops
  · rw [buildSystem_result] at hprocessors
    exact .fresh hprocessors (reading_visits_node hm [])
  · intro m' a now visits hmake h
    have hconcat := nodeReading_concat m' visits a now
    rw [hmake.capacity, hmake.watchesTraffic] at hconcat
    exact h.poll (tells_node _ _) hconcat

/-- An instance is in step with its visits since it was registered. -/
theorem measured_workload (hm : (build b a₀).result = .ok m) (ops : List Operation) {id : String}
    {i : Instance} (hi : (m.after ops).instances.get? id = some i) :
    ∃ params, registeredWith id m ops = some params ∧
      Told id m.watchesTraffic params i (m.visits (.workload id) ops) ∧
        i.entity.Measured (workloadReading id params m.watchesTraffic)
          (Visit.workloadFigure id params m.watchesTraffic) (m.visits (.workload id) ops) := by
  refine since_workload (P := fun params i visits => Told id m.watchesTraffic params i visits ∧
    i.entity.Measured (workloadReading id params m.watchesTraffic)
      (Visit.workloadFigure id params m.watchesTraffic) visits)
    (fun _ _ _ => rfl) (get?_of_build hm id) ?_ ?_ ops hi
  · intro m' params processors _ hbuilt
    rw [buildInstance_result] at hbuilt
    have htold := told_fresh id m.watchesTraffic params processors m'.settings.window
    exact ⟨htold, .fresh hbuilt htold.reading⟩
  · intro m' a now params i visits hmake h
    rw [hmake.watchesTraffic]
    refine ⟨told_poll h.1 a now, h.2.poll (tells_workload id params _) ?_⟩
    exact workloadReading_concat _ visits a now h.1.uid h.1.gid h.1.partitions

/-! ### Alerts and their processors -/

/-- At a poll a processor of an entity sets off an alert, or none. -/
def SetsOff (m : Monitor) (entity : EntityId) (a : Answers) (now : Timestamp) (p : Processor)
    (alert? : Option Alert) : Prop :=
  ∃ e row, m.entity? entity = some e ∧ row? entity m a now = some row ∧ p ∈ e.processors ∧
    (p.check row.reading).2 = alert?

/-- An alert under the id of the node, or under the ident of the instance that it is about. -/
def recordOf (m : Monitor) (entity : EntityId) (alert : Alert) : Option AlertRecord :=
  match entity with
  | .node => some (.system m.nodeId alert)
  | .workload id => (m.instances.get? id).map fun i => .workload i.ident alert

/-- An alert that a row shows is one of a processor. -/
theorem mem_setOff {e : Entity} {f : Fetches} {now : Timestamp} {alert : Alert}
    (h : alert ∈ Row.setOff (some (e.row f now))) :
    ∃ p ∈ e.processors, (p.check (e.row f now).reading).2 = some alert :=
  List.mem_map.mp (List.reduceOption_mem_iff.mp h)

/-- An alert of a poll is one of a processor. -/
theorem mem_pollAlerts {a : Answers} {now : Timestamp} {record : AlertRecord}
    (h : record ∈ m.pollAlerts a now) :
    ∃ entity p alert, m.SetsOff entity a now p (some alert) ∧
      m.recordOf entity alert = some record := by
  rcases List.mem_append.mp h with h | h
  · obtain ⟨alert, halert, rfl⟩ := List.mem_map.mp h
    obtain ⟨p, hp, hcheck⟩ := mem_setOff halert
    exact ⟨.node, p, alert, ⟨_, _, rfl, rfl, hp, hcheck⟩, rfl⟩
  · obtain ⟨⟨id, i⟩, hentry, h⟩ := List.mem_flatMap.mp h
    obtain ⟨alert, halert, rfl⟩ := List.mem_map.mp h
    have hget := Registry.get?_of_mem hentry
    simp only [row?, hget, Option.map_some] at halert
    obtain ⟨p, hp, hcheck⟩ := mem_setOff halert
    refine ⟨.workload id, p, alert, ⟨i.entity, _, ?_, ?_, hp, hcheck⟩, ?_⟩
    · rw [entity?, hget, Option.map_some]
    · rw [row?, hget, Option.map_some]
    · rw [recordOf, hget, Option.map_some]

/-- An alert of a run is one of a poll. -/
theorem mem_alertsOf {record : AlertRecord} : ∀ {m : Monitor} {ops : List Operation},
    record ∈ m.alertsOf ops →
      ∃ before a now behind, ops = before ++ .poll a now :: behind ∧
        record ∈ (m.after before).pollAlerts a now
  | m, op :: ops, h => by
    rw [alertsOf_cons] at h
    rcases List.mem_append.mp h with h | h
    · cases op with
      | poll a now =>
        rw [alertsOf, alertsOf, List.append_nil] at h
        exact ⟨[], a, now, ops, rfl, h⟩
      | _ => cases h
    · obtain ⟨before, a, now, behind, rfl, hmem⟩ := mem_alertsOf h
      exact ⟨op :: before, a, now, behind, rfl, hmem⟩

/-- An alert that is set off carries the latest figure that was fetched of its parameter. -/
theorem latest_of_setsOff (hm : (build b a₀).result = .ok m) (ops : List Operation)
    {entity : EntityId} {a : Answers} {now : Timestamp} {p : Processor} {alert : Alert}
    (h : (m.after ops).SetsOff entity a now p (some alert)) :
    alert.parameter = p.parameter.name ∧
      latest (fetchedOf entity m (ops ++ [.poll a now]) p.parameter) = some alert.value := by
  obtain ⟨e, row, he, hrow, hp, hcheck⟩ := h
  have hmake := m.after_sameMake ops
  cases entity with
  | node =>
    cases he
    cases hrow
    have hconcat := nodeReading_concat (m.after ops) (m.visits .node ops) a now
    rw [hmake.capacity, hmake.watchesTraffic] at hconcat
    obtain ⟨hname, hlatest⟩ := (measured_node hm ops).value (tells_node _ _) hconcat hp hcheck
    refine ⟨hname, ?_⟩
    rw [fetchedOf, visits, since_concat]
    exact hlatest
  | workload id =>
    obtain ⟨i, hi, rfl⟩ := Option.map_eq_some_iff.mp he
    rw [row?, hi, Option.map_some, hmake.watchesTraffic] at hrow
    cases hrow
    obtain ⟨params, hreg, htold, hmeasured⟩ := measured_workload hm ops hi
    obtain ⟨hname, hlatest⟩ := hmeasured.value (tells_workload id params _)
      (workloadReading_concat _ _ a now htold.uid htold.gid htold.partitions) hp hcheck
    refine ⟨hname, ?_⟩
    have hvisits : m.visits (.workload id) (ops ++ [.poll a now]) =
        m.visits (.workload id) ops ++ [⟨a, now, i.usage⟩] := by
      rw [visits, since_concat, note, visit?, hi]
      rfl
    have hregistered : registeredWith id m (ops ++ [.poll a now]) = some params := by
      rw [registeredWith_concat]
      exact hreg
    rw [fetchedOf, hregistered, Option.elim_some, hvisits]
    exact hlatest

/-- Traffic that is not watched is not fetched, and neither is that of an instance that has
no counters. -/
theorem traffic_not_fetched {entity : EntityId} {ops : List Operation} {parameter : Parameter}
    (htraffic : parameter = .inTraffic ∨ parameter = .outTraffic)
    (hoff : m.watchesTraffic = false ∨ ∃ id, entity = .workload id ∧
      ∀ v ∈ m.visits (.workload id) ops, v.answers.hasInstanceCounters id = false) :
    ∀ fetched ∈ fetchedOf entity m ops parameter, fetched = none := by
  intro fetched hfetched
  cases entity with
  | node =>
    have hwatch : m.watchesTraffic = false := by
      rcases hoff with hwatch | ⟨id, he, -⟩
      · exact hwatch
      · cases he
    obtain ⟨v, -, rfl⟩ := List.mem_map.mp hfetched
    rcases htraffic with rfl | rfl <;> simp [Visit.nodeFigure, Visit.nodeTraffic, hwatch]
  | workload id =>
    cases hreg : registeredWith id m ops with
    | none =>
      rw [fetchedOf, hreg] at hfetched
      cases hfetched
    | some params =>
      rw [fetchedOf, hreg] at hfetched
      obtain ⟨v, hv, rfl⟩ := List.mem_map.mp hfetched
      have hnone : v.instanceTraffic id m.watchesTraffic = none := by
        rcases hoff with hwatch | ⟨_, he, hcounters⟩
        · simp [Visit.instanceTraffic, hwatch]
        · cases he
          simp [Visit.instanceTraffic, hcounters v hv]
      rcases htraffic with rfl | rfl <;> simp [Visit.workloadFigure, hnone]

/-- **No alert without a measurement.** Every alert of a run that is handed to the sender is
set off at a poll by a processor of the node or of an instance that is registered
then. It carries the latest figure that was fetched of its parameter since the
entity was registered. So a processor sets off nothing as long as no fetch of its
parameter succeeds, and none does of traffic where it is not watched, or where the
instance has no counters. -/
theorem measured_of_sent (hm : (build b a₀).result = .ok m) (ops : List Operation) :
    (∀ record ∈ sentAlerts (m.effects ops), ∃ before a now behind entity p alert,
      ops = before ++ .poll a now :: behind ∧
        (m.after before).SetsOff entity a now p (some alert) ∧
        (m.after before).recordOf entity alert = some record ∧
        alert.parameter = p.parameter.name ∧
        latest (fetchedOf entity m (before ++ [.poll a now]) p.parameter) = some alert.value) ∧
      (∀ (entity : EntityId) (a : Answers) (now : Timestamp) (p : Processor)
        (alert? : Option Alert), (m.after ops).SetsOff entity a now p alert? →
          (∀ fetched ∈ fetchedOf entity m (ops ++ [.poll a now]) p.parameter, fetched = none) →
            alert? = none) ∧
      ∀ (entity : EntityId) (parameter : Parameter),
        parameter = .inTraffic ∨ parameter = .outTraffic →
          (m.watchesTraffic = false ∨ ∃ id, entity = .workload id ∧
            ∀ v ∈ m.visits (.workload id) ops, v.answers.hasInstanceCounters id = false) →
          ∀ fetched ∈ fetchedOf entity m ops parameter, fetched = none := by
  refine ⟨fun record hrecord => ?_, fun entity a now p alert? h hnone => ?_,
    fun entity parameter htraffic hoff => traffic_not_fetched htraffic hoff⟩
  · rw [sentAlerts_effects] at hrecord
    have hrecord : record ∈ m.alertsOf ops := by
      split at hrecord
      · exact hrecord
      · cases hrecord
    obtain ⟨before, a, now, behind, hops, hpoll⟩ := mem_alertsOf hrecord
    obtain ⟨entity, p, alert, hset, hrecord⟩ := mem_pollAlerts hpoll
    obtain ⟨hname, hlatest⟩ := latest_of_setsOff hm before hset
    exact ⟨before, a, now, behind, entity, p, alert, hops, hset, hrecord, hname, hlatest⟩
  · cases alert? with
    | none => rfl
    | some alert =>
      obtain ⟨-, hlatest⟩ := latest_of_setsOff hm ops h
      have hmem : some alert.value ∈ fetchedOf entity m (ops ++ [.poll a now]) p.parameter :=
        List.reduceOption_mem_iff.mp (List.mem_of_getLast? hlatest)
      cases hnone _ hmem

/-- A busy poll at which the source of the worker fails. -/
def faultyPoll : Answers := (underLoad 95 (some (.backend "gone"))).answers

/-- The worker's alarm goes on with the figure of the first poll, as at the second one its
source fails. Where it fails from the start nothing is set off, though it has filled in
600 bytes that reach the upper threshold. -/
theorem measured_of_sent_twoPolls :
    (∃ before a now behind entity p alert,
      twoPolls = before ++ .poll a now :: behind ∧
        (smallMonitor.after before).SetsOff entity a now p (some alert) ∧
        (smallMonitor.after before).recordOf entity alert =
          some (.workload worker.ident ⟨⟨2000, false⟩, "ram", 600, .continues⟩) ∧
        alert.parameter = p.parameter.name ∧
        latest (fetchedOf entity smallMonitor (before ++ [.poll a now]) p.parameter) =
          some alert.value) ∧
      ∃ p alert?, (smallMonitor.after [.start "a" worker]).SetsOff (.workload "a") faultyPoll
        ⟨1000, false⟩ p alert? ∧ p.detector.thresholds.high = 500 ∧ alert? = none := by
  refine ⟨(measured_of_sent build_smallNode twoPolls).1 _ (by decide +kernel), ?_⟩
  have hset : (smallMonitor.after [.start "a" worker]).SetsOff (.workload "a") faultyPoll
      ⟨1000, false⟩ (Processor.fresh "a RAM" .ram ⟨400, 500, .zero⟩) _ :=
    ⟨_, _, rfl, rfl, by decide +kernel, rfl⟩
  have hfetched : fetchedOf (.workload "a") smallMonitor
      ([.start "a" worker] ++ [.poll faultyPoll ⟨1000, false⟩]) .ram = [none] := by decide +kernel
  have hnone : ∀ fetched ∈ fetchedOf (.workload "a") smallMonitor
      ([.start "a" worker] ++ [.poll faultyPoll ⟨1000, false⟩]) .ram, fetched = none := by
    rw [hfetched]
    exact List.forall_mem_singleton.mpr rfl
  exact ⟨_, _, hset, rfl, (measured_of_sent build_smallNode _).2.1 _ _ _ _ _ hset hnone⟩

end Monitor

end QuotaWatch
