/-
# The processors that the rules imply

The rules of an entity imply its processors: their names, the figures that they
watch and their thresholds, in an order. A detector moves with every poll, and
none of this moves with it (`Processor.afresh_check`). So an entity has the
processors that its rules imply as long as it is registered
(`Entity.Implied.poll`).

The rules of the node are settled when the monitor is built. What its providers
answer later reaches no operation (`Site.monitor_after`). The rules of an instance
are those of the start that registered it: which start that was is told by the
operations alone, through `live`.

Key definitions: `Processor.afresh`, `Entity.Implied`, `live`, `Site`, `Site.after`.
Key theorems: `Entity.Implied.poll`, `Monitor.rel_live_step`, `Site.processors_of_run`.
-/
import QuotaWatch.Watched
import QuotaWatch.Proofs.Monitor.Alerts
import QuotaWatch.Proofs.Monitor.Isolation

namespace QuotaWatch

open Time

/-! ### Implied processors -/

section Implied

variable {label : String} {rules : Option RuleSet} {capacity : Capacity} {partitions : List String}

/-- A processor as it was registered: the detector has seen nothing yet. -/
def Processor.afresh (p : Processor) : Processor :=
  .fresh p.name p.parameter p.detector.thresholds

theorem Processor.afresh_of_isFresh {p : Processor} (h : p.IsFresh) : p.afresh = p := by
  rw [afresh, fresh, ← h]

/-- A check changes nothing that a processor was registered with. -/
theorem Processor.afresh_check (p : Processor) (r : Reading) : (p.check r).1.afresh = p.afresh := by
  unfold check
  split
  · rfl
  · simp only [afresh, Detector.thresholds_check]

/-- An entity has the processors that the rules imply for it. -/
structure Entity.Implied (e : Entity) (label : String) (rules : Option RuleSet)
    (capacity : Capacity) (partitions : List String) : Prop where
  /-- Name by name, figure by figure, threshold by threshold, and in this order. -/
  processors : implied label rules capacity partitions = .ok (e.processors.map (·.afresh))
  names : e.processors.map (·.name) = impliedNames label rules capacity partitions
  apart : ∀ p ∈ e.processors, p.detector.thresholds.low < p.detector.thresholds.high
  carried : e.reading.partitions.map (·.name) = partitions
  /-- A processor of a partition names one of those that the reading carries. -/
  among : ∀ p ∈ e.processors, p.parameter.IsAmong partitions
  /-- Whatever a poll fetches, the figure can be read behind it. -/
  readable : ∀ p ∈ e.processors, ∀ (f : Fetches) (now : Timestamp),
    (p.parameter.read (e.reading.refresh f now)).isSome = true

/-- All else follows from the processors and the partitions. -/
theorem Entity.implied_of_processors {e : Entity}
    (hprocessors : implied label rules capacity partitions = .ok (e.processors.map (·.afresh)))
    (hcarried : e.reading.partitions.map (·.name) = partitions) :
    e.Implied label rules capacity partitions := by
  obtain ⟨hnames, hall⟩ := implied_ok hprocessors
  have hamong : ∀ p ∈ e.processors, p.parameter.IsAmong partitions :=
    fun p hp => (hall p.afresh (List.mem_map_of_mem hp)).2.2
  refine ⟨hprocessors, ?_, ?_, hcarried, hamong, fun p hp f now => ?_⟩
  · rw [← hnames, List.map_map]
    rfl
  · exact fun p hp => (hall p.afresh (List.mem_map_of_mem hp)).2.1
  · refine Parameter.isSome_read ?_
    rw [Reading.names_refresh, hcarried]
    exact hamong p hp

theorem Entity.implied_fresh {ps : List Processor} {retention : Option Span}
    (h : implied label rules capacity partitions = .ok ps) :
    (Entity.fresh partitions ps retention).Implied label rules capacity partitions := by
  refine implied_of_processors ?_ ?_
  · have hfresh : ps.map (·.afresh) = ps := by
      rw [List.map_congr_left fun p hp => Processor.afresh_of_isFresh ((implied_ok h).2 p hp).1,
        List.map_id']
    rw [fresh, hfresh, h]
  · simp [fresh, Reading.zero, Function.comp_def]

/-- **A poll keeps what the rules imply.** -/
theorem Entity.Implied.poll {e : Entity} (h : e.Implied label rules capacity partitions)
    (f : Fetches) (now : Timestamp) : (e.poll f now).Implied label rules capacity partitions := by
  refine implied_of_processors ?_ ?_
  · have hafresh : (e.poll f now).processors.map (·.afresh) = e.processors.map (·.afresh) := by
      simp only [Entity.poll, List.map_map, Function.comp_def, Processor.afresh_check]
    rw [hafresh, h.processors]
  · rw [reading_poll, Reading.names_refresh, h.carried]

end Implied

/-! ### Live instances -/

/-- The parameters of a start, if it is accepted under an id that is free: the id names a
directory, and the rules imply processors. -/
def admitted (capacity : Capacity) (id : String) (params : InstanceParams) :
    Option InstanceParams :=
  if isInstanceId id &&
      (implied id params.rules capacity (params.partitions.map (·.name))).isOk then some params
  else none

/-- The parameters that the instance under an id runs with, behind one more operation. -/
def liveStep (capacity : Capacity) (id : String) (live? : Option InstanceParams) :
    Operation → Option InstanceParams
  | .start other params => if other = id then live?.or (admitted capacity id params) else live?
  | .stop other => if other = id then none else live?
  | _ => live?

/-- The parameters that the instance under an id runs with behind a run: those of the first
start that was accepted since it was last stopped. -/
def live (capacity : Capacity) (id : String) (ops : List Operation) : Option InstanceParams :=
  ops.foldl (liveStep capacity id) none

theorem live_concat (capacity : Capacity) (id : String) (ops : List Operation) (op : Operation) :
    live capacity id (ops ++ [op]) = liveStep capacity id (live capacity id ops) op := by
  rw [live, List.foldl_append, List.foldl_cons, List.foldl_nil, live]

/-- An instance has the processors that the rules of its parameters imply. -/
def Instance.RunsWith (capacity : Capacity) (id : String) (params : InstanceParams)
    (i : Instance) : Prop :=
  i.entity.Implied id params.rules capacity (params.partitions.map (·.name))

section Rel

variable {α β : Type} {r : α → β → Prop} {a a' : Option α} {b b' : Option β}

theorem rel_map {f : β → β} (h : Option.Rel r a b) (hf : ∀ x y, r x y → r x (f y)) :
    Option.Rel r a (b.map f) := by
  cases h with
  | none => exact .none
  | some h => exact .some (hf _ _ h)

theorem rel_or (h : Option.Rel r a b) (h' : Option.Rel r a' b') :
    Option.Rel r (a.or a') (b.or b') := by
  cases h with
  | none => exact h'
  | some h => exact .some h

theorem isSome_of_rel (h : Option.Rel r a b) : b.isSome = a.isSome := by
  cases h <;> rfl

theorem exists_of_rel {x : α} (h : Option.Rel r (some x) b) : ∃ y, b = some y ∧ r x y := by
  cases h with
  | some h => exact ⟨_, rfl, h⟩

theorem elim_of_rel {γ : Type} {c : γ} {f : α → γ} {g : β → γ} (h : Option.Rel r a b)
    (hfg : ∀ x y, r x y → g y = f x) : b.elim c g = a.elim c f := by
  cases h with
  | none => rfl
  | some h => exact hfg _ _ h

end Rel

namespace Monitor

variable {m : Monitor} {id : String}

/-- A start that is accepted makes a record with the processors that its rules imply. -/
theorem rel_registered? (m : Monitor) (id : String) (params : InstanceParams) :
    Option.Rel (Instance.RunsWith m.capacity id) (admitted m.capacity id params)
      (m.registered? id params) := by
  unfold admitted registered?
  rw [buildInstance_result]
  cases isInstanceId id with
  | false => exact .none
  | true =>
    cases himplied : implied id params.rules m.capacity (params.partitions.map (·.name)) with
    | error fault => exact .none
    | ok ps => exact .some (Entity.implied_fresh himplied)

/-- **One operation** keeps an instance registered as long as it is live, with the
processors that its rules imply. -/
theorem rel_live_step {live? : Option InstanceParams}
    (h : Option.Rel (Instance.RunsWith m.capacity id) live? (m.instances.get? id))
    (op : Operation) :
    Option.Rel (Instance.RunsWith m.capacity id) (liveStep m.capacity id live? op)
      ((m.step op).1.instances.get? id) := by
  cases op with
  | poll a now =>
    show Option.Rel _ live? ((m.poll a now).1.instances.get? id)
    rw [get?_poll]
    exact rel_map h fun _ _ hi => hi.poll _ now
  | send now => exact h
  | start other params =>
    rw [liveStep]
    by_cases hid : other = id
    · subst hid
      rw [if_pos rfl, step, get?_start]
      exact rel_or h (m.rel_registered? other params)
    · have hsame : SameRecord (.workload id) m (m.step (.start other params)).1 :=
        sameRecord_step fun he => hid (EntityId.workload.inj he).symm
      have hget : (m.step (.start other params)).1.instances.get? id = m.instances.get? id := hsame
      rw [if_neg hid, hget]
      exact h
  | stop other =>
    rw [liveStep, step, (m.stop_monitor other).2.2]
    by_cases hid : other = id
    · rw [if_pos hid, if_pos hid.symm]
      exact .none
    · rw [if_neg hid, if_neg fun he => hid he.symm]
      exact h
  | query => exact h

/-- Behind a run the instances that are registered are those that are live. -/
theorem rel_live (hnone : m.instances.get? id = none) (ops : List Operation) :
    Option.Rel (Instance.RunsWith m.capacity id) (live m.capacity id ops)
      ((m.after ops).instances.get? id) := by
  induction ops using List.reverseRecOn with
  | nil =>
    rw [after, hnone]
    exact .none
  | append_singleton ops op ih =>
    rw [live_concat, after_concat]
    -- a start is judged by the capacity, and this no operation changes
    rw [← (m.after_sameMake ops).capacity] at ih ⊢
    exact rel_live_step ih op

/-- The node keeps the processors that its rules imply. -/
theorem implied_system {rules : Option RuleSet} {capacity : Capacity} {partitions : List String}
    (h : m.system.Implied systemLabel rules capacity partitions) (ops : List Operation) :
    (m.after ops).system.Implied systemLabel rules capacity partitions := by
  induction ops using List.reverseRecOn with
  | nil => exact h
  | append_singleton ops op ih =>
    rw [after_concat]
    rcases (m.after ops).system_step op with ⟨a, now, rfl, he⟩ | ⟨-, he⟩
    · rw [he]
      exact ih.poll _ now
    · rw [he]
      exact ih

/-- The names of the processors, entity by entity. -/
theorem processorNames_eq (m : Monitor) :
    m.processorNames = m.system.processors.map (·.name) ++
      m.instances.ids.flatMap fun id =>
        (m.instances.get? id).elim [] (·.entity.processors.map (·.name)) := by
  rw [m.instances.flatMap_ids fun _ i => i.entity.processors.map (·.name), processorNames,
    List.map_append, Registry.values, List.flatMap_map, List.map_flatMap]

end Monitor

/-! ### Sites -/

/-- The providers of a node, each with the answer that it gives at present. -/
structure Providers where
  nodeInfo : Option (Watched (Except SourceFault NodeInfo)) := none
  nodeSettings : Option (Watched (Except SourceFault NodeSettings)) := none

/-- The rules in force for the node: those of its settings if they bring any, else those of
the monitor's settings, else none. -/
def Providers.rules (p : Providers) (settings : Settings) : Option RuleSet :=
  (p.nodeSettings.bind fun w => w.value.toOption.bind (·.rules)).or settings.rules

/-- A monitor among the providers of its node. -/
structure Site where
  providers : Providers
  monitor : Monitor

/-- What happens on a site. -/
inductive Happening where
  /-- The monitor does an operation. -/
  | operation (op : Operation)
  /-- The facts of the node are replaced, or can no longer be had. -/
  | nodeInfo (answer : Except SourceFault NodeInfo)
  /-- The settings of the node are replaced, or can no longer be had. -/
  | nodeSettings (answer : Except SourceFault NodeSettings)

/-- The operations among what happens. -/
def operations (happenings : List Happening) : List Operation :=
  happenings.filterMap fun
    | .operation op => some op
    | _ => none

namespace Site

/-- Build a monitor from what the providers answer at present. -/
def build (b : Blueprint) (providers : Providers) (a : Answers) : Attempt Site := do
  let answered := { b with
    nodeInfo := providers.nodeInfo.map (·.value)
    nodeSettings := providers.nodeSettings.map (·.value) }
  let monitor ← Monitor.build answered a
  pure ⟨providers, monitor⟩

/-- The site behind one more happening. -/
def step (s : Site) : Happening → Site
  | .operation op => { s with monitor := (s.monitor.step op).1 }
  | .nodeInfo answer =>
    { s with providers.nodeInfo := s.providers.nodeInfo.map (·.update answer) }
  | .nodeSettings answer =>
    { s with providers.nodeSettings := s.providers.nodeSettings.map (·.update answer) }

/-- The site behind what happens. -/
def after (s : Site) (happenings : List Happening) : Site := happenings.foldl step s

/-- A monitor does not ask its providers again. -/
theorem monitor_after (happenings : List Happening) (s : Site) :
    (s.after happenings).monitor = s.monitor.after (operations happenings) := by
  induction happenings generalizing s with
  | nil => rfl
  | cons happening happenings ih =>
    rw [after, List.foldl_cons, ← after, ih]
    cases happening <;> rfl

/-- A site that was built has the capacity that was gathered and the processors that the
rules in force imply for the node, and no instances yet. -/
theorem build_ok {b : Blueprint} {providers : Providers} {a : Answers} {site : Site}
    (h : (build b providers a).result = .ok site) :
    (∃ info, providers.nodeInfo.map (·.value) = some (.ok info) ∧
        (Capacity.gather b.settings info a).result = .ok site.monitor.capacity) ∧
      site.monitor.system.Implied Monitor.systemLabel (providers.rules b.settings)
        site.monitor.capacity (site.monitor.capacity.partitions.map (·.name)) ∧
      ∀ id, site.monitor.instances.get? id = none := by
  obtain ⟨m, hm, hsite⟩ := Attempt.bind_result_ok.mp h
  cases hsite
  obtain ⟨info, capacity, rules, ps, -, hinfo, hcapacity, hrules, hps, rfl⟩ := Monitor.build_ok hm
  have hrules : rules = providers.rules b.settings := by
    rw [Monitor.askRules_ok hrules, Option.bind_map]
    rfl
  rw [Monitor.buildSystem_result, hrules] at hps
  exact ⟨⟨info, Monitor.askNodeInfo_ok hinfo, hcapacity⟩, Entity.implied_fresh hps, fun _ => rfl⟩

/-- **Every processor is implied by the rules, and every implied processor is there.** Behind
whatever happens on a site the node has the processors that the rules imply which
were in force when the monitor was built, and a registered instance those that the
rules and the partitions of the start imply which registered it, for the capacity
that was gathered at first. Registered are the instances that are live, and the
names of the processors are those of the node and then, in ascending order of the
ids, those of the live instances. -/
theorem processors_of_run {b : Blueprint} {providers : Providers} {a₀ : Answers} {site : Site}
    (h : (build b providers a₀).result = .ok site) (happenings : List Happening) :
    let m := (site.after happenings).monitor
    let live? (id : String) := live m.capacity id (operations happenings)
    (∃ info, providers.nodeInfo.map (·.value) = some (.ok info) ∧
        (Capacity.gather b.settings info a₀).result = .ok m.capacity) ∧
      m.system.Implied Monitor.systemLabel (providers.rules b.settings) m.capacity
        (m.capacity.partitions.map (·.name)) ∧
      (∀ id, Option.Rel
        (fun params i => i.entity.Implied id params.rules m.capacity
          (params.partitions.map (·.name)))
        (live? id) (m.instances.get? id)) ∧
      (∀ id, id ∈ m.instances.ids ↔ (live? id).isSome = true) ∧
      m.instances.ids.Pairwise (· < ·) ∧
      m.processorNames =
        impliedNames Monitor.systemLabel (providers.rules b.settings) m.capacity
            (m.capacity.partitions.map (·.name)) ++
          m.instances.ids.flatMap fun id => (live? id).elim [] fun params =>
            impliedNames id params.rules m.capacity (params.partitions.map (·.name)) := by
  intro m live?
  obtain ⟨hgathered, hbuilt, hnone⟩ := build_ok h
  have hm : m = site.monitor.after (operations happenings) := monitor_after happenings site
  have hcapacity : m.capacity = site.monitor.capacity := by
    rw [hm, (site.monitor.after_sameMake _).capacity]
  have hsystem := Monitor.implied_system hbuilt (operations happenings)
  have hrel : ∀ id, Option.Rel (Instance.RunsWith m.capacity id) (live? id)
      (m.instances.get? id) := by
    intro id
    have hlive := Monitor.rel_live (hnone id) (operations happenings)
    rwa [← hm, ← hcapacity] at hlive
  rw [← hm, ← hcapacity] at hsystem
  rw [← hcapacity] at hgathered
  refine ⟨hgathered, hsystem, hrel, fun id => ?_, m.instances.ids_sorted, ?_⟩
  · rw [Registry.mem_ids, isSome_of_rel (hrel id)]
  · rw [m.processorNames_eq, hsystem.names]
    congr 1
    exact List.flatMap_congr fun id _ => elim_of_rel (hrel id) fun _ _ hi => hi.names

/-- The small node with a provider of its facts, and one of settings without rules. -/
def small : Site where
  providers.nodeInfo := Monitor.smallNode.nodeInfo.map fun answer => { value := answer }
  providers.nodeSettings := some { value := .ok {} }
  monitor := Monitor.smallMonitor

/-- The worker with other rules. -/
def reworked : InstanceParams :=
  { Monitor.worker with
    rules := some
      { cpu := some (.relative { min := 80, max := 90 })
        partitions := [⟨"state", .absolute { min := 1, max := 2 }⟩,
          ⟨"home", .absolute { min := 3, max := 4 }⟩] } }

/-- The providers change their answers, starts fail, and an instance is started again with
other rules. -/
def unsettled : List Happening :=
  [.operation (.start "b" Monitor.worker),
    .operation (.start "../c" Monitor.worker),
    .operation (.start "c"
      { Monitor.worker with rules := some { cpu := some (.absolute { min := 5, max := 5 }) } }),
    .operation (.poll (Monitor.underLoad 95 none).answers ⟨1000, false⟩),
    .nodeSettings (.ok { rules := some { ram := some (.absolute { min := 1, max := 2 }) } }),
    .nodeInfo (.error (.backend "gone")),
    .operation (.stop "b"),
    .operation (.start "b" reworked),
    .operation (.start "a" Monitor.worker),
    .operation (.start "a" reworked),
    .operation (.poll (Monitor.underLoad 95 none).answers ⟨2000, false⟩)]

theorem processors_of_run_unsettled :
    (build Monitor.smallNode small.providers (Monitor.underLoad 10 none).answers).result =
        .ok small ∧
      let m := (small.after unsettled).monitor
      let capacity := Monitor.smallMonitor.capacity
      m.system.Implied Monitor.systemLabel Monitor.smallNode.settings.rules capacity ["state"] ∧
        (∃ i, m.instances.get? "b" = some i ∧
          i.entity.Implied "b" reworked.rules capacity ["home"]) ∧
        m.instances.ids = ["a", "b"] ∧
        m.processorNames = ["System CPU", "a RAM", "b CPU", "b Partition home"] := by
  have hbuild : (build Monitor.smallNode small.providers
      (Monitor.underLoad 10 none).answers).result = .ok small := rfl
  have hcapacity : (small.after unsettled).monitor.capacity = Monitor.smallMonitor.capacity := by
    decide +kernel
  have hlive : live Monitor.smallMonitor.capacity "b" (operations unsettled) = some reworked := rfl
  obtain ⟨-, hsystem, hrel, -, -, hnames⟩ := processors_of_run hbuild unsettled
  rw [hcapacity] at hsystem
  have hb := hrel "b"
  simp only [hcapacity, hlive] at hb
  exact ⟨hbuild, hsystem, exists_of_rel hb, by decide +kernel, hnames.trans (by decide +kernel)⟩

end Site

end QuotaWatch
