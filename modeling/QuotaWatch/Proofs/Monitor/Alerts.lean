/-
# The alerts of a run

At a poll the processors of the node are run and then those of the instances in
the order of their ids, each on the reading behind the fetches. What a poll
shows of an entity is a row: its reading and what each processor sets off. The
alerts of a run are the rows of its polls, one after the other, and the column
of a processor in the rows since its registration is what one fresh detector
sets off when it is fed with the figure of every row (`Entity.follows_poll`).

Key definitions: `Row`, `Monitor.row?`, `Monitor.alertsOf`, `Processor.FollowsAt`.
Key theorems: `Entity.follows_poll`, `Monitor.sentAlerts_effects`, `Monitor.alerts_of_run`.
-/
import Mathlib.Data.List.ReduceOption
import QuotaWatch.Proofs.Alert.History
import QuotaWatch.Proofs.Monitor.Built

namespace QuotaWatch

open Time

/-! ### Rows -/

/-- What a poll shows of an entity. -/
structure Row where
  time : Timestamp
  /-- The reading behind the fetches. -/
  reading : Reading
  /-- What each processor sets off, in the order in which they are registered. -/
  alerts : List (Option Alert)

def Entity.row (e : Entity) (f : Fetches) (now : Timestamp) : Row where
  time := now
  reading := (e.poll f now).reading
  alerts := e.processors.map fun p => (p.check (e.poll f now).reading).2

/-- The alerts that a row shows, if there is one. -/
def Row.setOff (row? : Option Row) : List Alert := row?.elim [] (·.alerts.reduceOption)

namespace Monitor

/-- What a poll shows of an entity of the monitor, if it is there. -/
def row? (entity : EntityId) (m : Monitor) (a : Answers) (now : Timestamp) : Option Row :=
  match entity with
  | .node => some (m.system.row (m.systemFetches a) now)
  | .workload id => (m.instances.get? id).map fun i =>
    i.entity.row (i.fetches a m.watchesTraffic id) now

/-- The alerts of a poll: those of the node, then those of the instances in ascending
order of their ids, each under the id of the node or the ident of its instance. -/
def pollAlerts (m : Monitor) (a : Answers) (now : Timestamp) : List AlertRecord :=
  (Row.setOff (row? .node m a now)).map (.system m.nodeId) ++
    m.instances.entries.flatMap fun (id, i) =>
      (Row.setOff (row? (.workload id) m a now)).map (.workload i.ident)

/-- The alerts of a run, poll by poll. -/
def alertsOf (m : Monitor) : List Operation → List AlertRecord
  | [] => []
  | .poll a now :: ops => m.pollAlerts a now ++ (m.step (.poll a now)).1.alertsOf ops
  | op :: ops => (m.step op).1.alertsOf ops

end Monitor

/-! ### Alerts among the effects -/

/-- The alert that an effect hands to the sender. -/
def Event.alert? : Event → Option AlertRecord
  | .alerted record => some record
  | _ => none

/-- The alerts that are handed to the sender, in order. -/
def sentAlerts (events : List Event) : List AlertRecord := events.filterMap Event.alert?

theorem sentAlerts_append (xs ys : List Event) :
    sentAlerts (xs ++ ys) = sentAlerts xs ++ sentAlerts ys := List.filterMap_append

theorem sentAlerts_flatMap {β : Type} (l : List β) (f : β → List Event) :
    sentAlerts (l.flatMap f) = l.flatMap fun x => sentAlerts (f x) := List.filterMap_flatMap

theorem sentAlerts_eq_nil {events : List Event} (h : ∀ event ∈ events, event.alert? = none) :
    sentAlerts events = [] := List.filterMap_eq_nil_iff.mpr h

theorem Fetches.sentAlerts_events (f : Fetches) (entity : String) :
    sentAlerts (f.events entity) = [] := by
  rw [events, sentAlerts_flatMap, List.flatMap_eq_nil_iff]
  rintro ⟨probe, failed⟩ -
  cases failed <;> rfl

namespace Monitor

theorem sentAlerts_alertEvents (m : Monitor) (notice : Notice) (record : AlertRecord) :
    sentAlerts (m.alertEvents notice record) = if m.sendsAlerts then [record] else [] := by
  unfold alertEvents
  cases m.sendsAlerts <;> rfl

theorem sentAlerts_fetchEvents (m : Monitor) (a : Answers) : sentAlerts (m.fetchEvents a) = [] := by
  unfold fetchEvents
  rw [List.cons_append, ← List.singleton_append, sentAlerts_append, sentAlerts_append,
    Fetches.sentAlerts_events, sentAlerts_flatMap]
  simp only [Fetches.sentAlerts_events]
  rw [List.flatMap_eq_nil_iff.mpr fun _ _ => rfl]
  rfl

/-- The alerts of an entity that are handed to the sender are those of its row. -/
theorem sentAlerts_entity (m : Monitor) (e : Entity) (f : Fetches) (now : Timestamp)
    (notice : String → Alert → Notice) (record : Alert → AlertRecord) :
    sentAlerts ((e.alerts f now).flatMap fun (name, alert) =>
        m.alertEvents (notice name alert) (record alert)) =
      if m.sendsAlerts then (e.row f now).alerts.reduceOption.map record else [] := by
  unfold Entity.alerts Entity.row
  rw [Entity.reading_poll]
  generalize e.reading.refresh f now = reading
  induction e.processors with
  | nil => cases m.sendsAlerts <;> rfl
  | cons p ps ih =>
    cases hp : (p.check reading).2 with
    | none =>
      rw [List.filterMap_cons_none (by rw [hp]; rfl), ih, List.map_cons, hp,
        List.reduceOption_cons_of_none]
    | some alert =>
      rw [List.filterMap_cons_some (b := (p.name, alert)) (by rw [hp]; rfl), List.flatMap_cons,
        sentAlerts_append, ih, sentAlerts_alertEvents, List.map_cons, hp,
        List.reduceOption_cons_of_some]
      cases m.sendsAlerts <;> rfl

/-- At a poll the alerts of the rows are handed to the sender, if there is one. -/
theorem sentAlerts_pollEvents (m : Monitor) (a : Answers) (now : Timestamp) :
    sentAlerts (m.pollEvents a now) = if m.sendsAlerts then m.pollAlerts a now else [] := by
  have hnode : sentAlerts (m.systemAlertEvents a now) =
      if m.sendsAlerts then (Row.setOff (row? .node m a now)).map (.system m.nodeId) else [] :=
    sentAlerts_entity m m.system (m.systemFetches a) now .systemAlert (.system m.nodeId)
  have hinstances : (m.instances.entries.flatMap fun (id, i) =>
        sentAlerts (m.instanceAlertEvents a now id i)) =
      if m.sendsAlerts then m.instances.entries.flatMap fun (id, i) =>
        (Row.setOff (row? (.workload id) m a now)).map (.workload i.ident) else [] := by
    have hone : ∀ entry ∈ m.instances.entries,
        sentAlerts (m.instanceAlertEvents a now entry.1 entry.2) =
          if m.sendsAlerts then
            (Row.setOff (row? (.workload entry.1) m a now)).map (.workload entry.2.ident)
          else [] := by
      rintro ⟨id, i⟩ hmem
      have hget := Registry.get?_of_mem hmem
      simp only [row?, hget, Option.map_some]
      exact sentAlerts_entity m i.entity (i.fetches a m.watchesTraffic id) now
        (fun name => .instanceAlert name i.ident) (.workload i.ident)
    rw [List.flatMap_congr hone]
    cases m.sendsAlerts
    · exact List.flatMap_eq_nil_iff.mpr fun _ _ => rfl
    · rfl
  unfold pollEvents
  rw [sentAlerts_append, sentAlerts_append, sentAlerts_append, sentAlerts_fetchEvents, hnode,
    sentAlerts_flatMap, hinstances, List.nil_append, pollAlerts]
  cases m.sendsAlerts
  · rfl
  · exact List.append_nil _

/-- Only a poll hands alerts to the sender. -/
theorem sentAlerts_step (m : Monitor) (op : Operation) :
    sentAlerts (m.step op).2 = if m.sendsAlerts then m.alertsOf [op] else [] := by
  cases op with
  | poll a now =>
    simp only [step, alertsOf, List.append_nil]
    exact m.sentAlerts_pollEvents a now
  | send now => cases m.sendsAlerts <;> rfl
  | start id params =>
    have hnone : sentAlerts (m.start id params).events = [] := by
      refine sentAlerts_eq_nil fun event hevent => ?_
      obtain ⟨notice, rfl, -⟩ := start_events hevent
      rfl
    simp only [step, hnone, alertsOf, ite_self]
  | stop id =>
    have hnone : sentAlerts (m.stop id).events = [] := by
      refine sentAlerts_eq_nil fun event hevent => ?_
      obtain ⟨notice, rfl, -⟩ := stop_events hevent
      rfl
    simp only [step, hnone, alertsOf, ite_self]
  | query => cases m.sendsAlerts <;> rfl

theorem alertsOf_cons (m : Monitor) (op : Operation) (ops : List Operation) :
    m.alertsOf (op :: ops) = m.alertsOf [op] ++ (m.step op).1.alertsOf ops := by
  cases op <;> simp [alertsOf]

/-- A run hands the alerts of the rows of its polls to the sender, if there is one. -/
theorem sentAlerts_effects : ∀ (m : Monitor) (ops : List Operation),
    sentAlerts (m.effects ops) = if m.sendsAlerts then m.alertsOf ops else []
  | m, [] => by cases m.sendsAlerts <;> rfl
  | m, op :: ops => by
    rw [effects, sentAlerts_append, sentAlerts_step, sentAlerts_effects (m.step op).1 ops,
      (m.step_sameMake op).sendsAlerts, m.alertsOf_cons op ops]
    cases m.sendsAlerts <;> rfl

end Monitor

/-! ### Columns -/

namespace Parameter

/-- What a detector of the figure is fed with: the time and the figure of every row. -/
def inputs (parameter : Parameter) (rows : List Row) : List (Timestamp × Figure) :=
  rows.filterMap fun row => (parameter.read row.reading).map (row.time, ·)

/-- An alarm of the figure as an alert. -/
def alert (parameter : Parameter) (a : Alarm) : Alert :=
  ⟨a.timestamp, parameter.name, a.value, a.status⟩

/-- The figure can be read where the entity is measured on it. -/
theorem isSome_read {parameter : Parameter} {r : Reading}
    (h : parameter.IsAmong (r.partitions.map (·.name))) : (parameter.read r).isSome = true := by
  cases parameter with
  | partition name =>
    obtain ⟨usage, hmem, hname⟩ := List.mem_map.mp h
    simp only [read, Reading.partitionUsed, Option.isSome_map, List.find?_isSome]
    exact ⟨usage, hmem, by simpa using hname⟩
  | _ => rfl

end Parameter

/-- A check feeds the detector with the figure. -/
theorem Processor.check_of_read {p : Processor} {r : Reading} {value : Figure}
    (h : p.parameter.read r = some value) :
    p.check r =
      ({ p with detector := (p.detector.check r.timestamp value).1 },
        (p.detector.check r.timestamp value).2.map p.parameter.alert) := by
  simp only [check, h]
  rfl

/-- The processor at a place has done in the rows what one fresh detector does that
is fed with the figure of every row. -/
structure Processor.FollowsAt (p : Processor) (place : ℕ) (rows : List Row) : Prop where
  readable : ∀ row ∈ rows, (p.parameter.read row.reading).isSome = true
  detector : p.detector =
    (({ thresholds := p.detector.thresholds } : Detector).run (p.parameter.inputs rows)).1
  alerts : rows.map (·.alerts[place]?) =
    (({ thresholds := p.detector.thresholds } : Detector).run (p.parameter.inputs rows)).2.map
      fun alarm => some (alarm.map p.parameter.alert)

/-- The processors of an entity watch its figures, and each has followed the rows. -/
structure Entity.Follows (e : Entity) (rows : List Row) : Prop where
  among : ∀ p ∈ e.processors, p.parameter.IsAmong (e.reading.partitions.map (·.name))
  at_place : ∀ (place : ℕ) (p : Processor), e.processors[place]? = some p → p.FollowsAt place rows

theorem Entity.follows_fresh {label : String} {rules : Option RuleSet} {capacity : Capacity}
    {partitions : List String} {ps : List Processor} {retention : Option Time.Span}
    (h : implied label rules capacity partitions = .ok ps) :
    (Entity.fresh partitions ps retention).Follows [] := by
  refine ⟨fun p hp => ?_, fun place p hp => ⟨by simp, ?_, rfl⟩⟩
  · have hnames : ((Reading.zero partitions).partitions.map (·.name)) = partitions := by
      simp [Reading.zero, Function.comp_def]
    rw [show (Entity.fresh partitions ps retention).reading = Reading.zero partitions from rfl,
      hnames]
    exact ((implied_ok h).2 p hp).2.2
  · exact ((implied_ok h).2 p (List.mem_of_getElem? hp)).1

/-- **A poll feeds every detector once.** -/
theorem Entity.follows_poll {e : Entity} {rows : List Row} (h : e.Follows rows) (f : Fetches)
    (now : Timestamp) : (e.poll f now).Follows (rows ++ [e.row f now]) := by
  have hnames : (e.poll f now).reading.partitions.map (·.name) =
      e.reading.partitions.map (·.name) := Reading.names_refresh _ _ _
  have hread : ∀ p ∈ e.processors, ∃ value,
      p.parameter.read (e.poll f now).reading = some value := by
    intro p hp
    apply Option.isSome_iff_exists.mp
    apply Parameter.isSome_read
    rw [hnames]
    exact h.among p hp
  constructor
  · intro p' hp'
    obtain ⟨p, hp, rfl⟩ := List.mem_map.mp hp'
    obtain ⟨value, hvalue⟩ := hread p hp
    have hcheck := Processor.check_of_read hvalue
    rw [Entity.reading_poll] at hcheck
    rw [hnames, hcheck]
    exact h.among p hp
  · intro place p' hp'
    have hget : (e.processors.map fun p => (p.check (e.poll f now).reading).1)[place]? =
        some p' := hp'
    rw [List.getElem?_map, Option.map_eq_some_iff] at hget
    obtain ⟨p, hp, rfl⟩ := hget
    obtain ⟨value, hvalue⟩ := hread p (List.mem_of_getElem? hp)
    obtain ⟨hreadable, hdetector, halerts⟩ := h.at_place place p hp
    have hcheck := Processor.check_of_read hvalue
    have hinputs : p.parameter.inputs (rows ++ [e.row f now]) =
        p.parameter.inputs rows ++ [(now, value)] := by
      rw [Parameter.inputs, List.filterMap_append]
      simp only [Parameter.inputs, Entity.row, List.filterMap_cons, hvalue, Option.map_some,
        List.filterMap_nil]
    rw [hcheck]
    refine ⟨?_, ?_, ?_⟩
    · intro row hrow
      rcases List.mem_append.mp hrow with hrow | hrow
      · exact hreadable row hrow
      · rw [List.mem_singleton.mp hrow]
        exact Option.isSome_of_eq_some hvalue
    · simp only [Detector.thresholds_check, hinputs, Detector.run_concat]
      rw [← hdetector]
      rfl
    · simp only [Detector.thresholds_check, hinputs, Detector.run_concat, List.map_append, halerts,
        ← hdetector]
      simp only [Entity.row, List.map_cons, List.map_nil, List.getElem?_map, hp, Option.map_some,
        hcheck]
      rfl

namespace Monitor

/-- The processors of the node have followed its rows. -/
theorem follows_node {b : Blueprint} {a₀ : Answers} {m : Monitor}
    (hm : (build b a₀).result = .ok m) (ops : List Operation) :
    (m.after ops).system.Follows (since .node (row? .node) m ops) := by
  obtain ⟨info, capacity, rules, processors, -, -, -, -, hprocessors, rfl⟩ := build_ok hm
  refine since_node (P := Entity.Follows) (fun _ _ _ => rfl) ?_ ?_ ops
  · exact Entity.follows_fresh (buildSystem_result rules capacity ▸ hprocessors)
  · exact fun m' a now rows _ h => Entity.follows_poll h _ now

/-- The processors of an instance have followed its rows since it was registered, and
its ident is that of the start which registered it. -/
theorem follows_workload {b : Blueprint} {a₀ : Answers} {m : Monitor}
    (hm : (build b a₀).result = .ok m) (ops : List Operation) {id : String} {i : Instance}
    (hi : (m.after ops).instances.get? id = some i) :
    i.entity.Follows (since (.workload id) (row? (.workload id)) m ops) ∧
      (registeredWith id m ops).map (·.ident) = some i.ident := by
  obtain ⟨params, hreg, hfollows, hident⟩ := since_workload
    (P := fun params i rows => i.entity.Follows rows ∧ params.ident = i.ident)
    (fun _ _ _ => rfl) (get?_of_build hm id)
    (fun m' params ps _ hps => ⟨Entity.follows_fresh (m'.buildInstance_result id params ▸ hps), rfl⟩)
    (fun m' a now params i rows _ h => ⟨Entity.follows_poll h.1 _ now, h.2⟩) ops hi
  exact ⟨hfollows, by rw [hreg, Option.map_some, hident]⟩

/-- **The alerts of a run.** The alerts handed to the sender are, poll by poll, those of
the node's row and of the rows of the instances in ascending order of their ids,
each under the node's id or under the ident of the start that registered the
instance. For every processor its column in the rows since the entity was
registered is what one fresh detector with its thresholds sets off that is fed
once for every row. -/
theorem alerts_of_run {b : Blueprint} {a₀ : Answers} {m : Monitor}
    (hm : (build b a₀).result = .ok m) (ops : List Operation) :
    sentAlerts (m.effects ops) = (if m.sendsAlerts then m.alertsOf ops else []) ∧
      (∀ (id : String) (i : Instance), (m.after ops).instances.get? id = some i →
        (registeredWith id m ops).map (·.ident) = some i.ident) ∧
      ∀ (entity : EntityId) (e : Entity) (place : ℕ) (p : Processor),
        (m.after ops).entity? entity = some e →
        e.processors[place]? = some p →
        let rows := since entity (row? entity) m ops
        (∀ row ∈ rows, (p.parameter.read row.reading).isSome = true) ∧
          rows.map (·.alerts[place]?) =
            (({ thresholds := p.detector.thresholds } : Detector).run
              (p.parameter.inputs rows)).2.map fun alarm => some (alarm.map p.parameter.alert) := by
  refine ⟨sentAlerts_effects _ ops, fun id i hi => (follows_workload hm ops hi).2, ?_⟩
  intro entity e place p he hp
  have hfollows : e.Follows (since entity (row? entity) m ops) := by
    cases entity with
    | node =>
      obtain rfl := Option.some_inj.mp he
      exact follows_node hm ops
    | workload id =>
      obtain ⟨i, hi, rfl⟩ := Option.map_eq_some_iff.mp he
      exact (follows_workload hm ops hi).1
  obtain ⟨hreadable, -, halerts⟩ := hfollows.at_place place p hp
  exact ⟨hreadable, halerts⟩

/-- The busy poll of the small node raises both its alarms. At the quiet one that of the
CPU falls, and that of the instance goes on, as its source has failed. -/
theorem alerts_of_run_twoPolls :
    sentAlerts (smallMonitor.effects twoPolls) =
        [.system "node0" ⟨⟨1000, false⟩, "cpu", 9500, .raise⟩,
          .workload worker.ident ⟨⟨1000, false⟩, "ram", 600, .raise⟩,
          .system "node0" ⟨⟨2000, false⟩, "cpu", 1000, .fall⟩,
          .workload worker.ident ⟨⟨2000, false⟩, "ram", 600, .continues⟩] ∧
      ∃ e p, (smallMonitor.after twoPolls).entity? (.workload "a") = some e ∧
        e.processors[0]? = some p ∧
        let rows := since (.workload "a") (row? (.workload "a")) smallMonitor twoPolls
        rows.length = 2 ∧ ∀ row ∈ rows, (p.parameter.read row.reading).isSome = true := by
  have h := alerts_of_run build_smallNode twoPolls
  refine ⟨h.1.trans (by decide +kernel), _, _, rfl, rfl, rfl, ?_⟩
  exact (h.2.2 (.workload "a") _ 0 _ rfl rfl).1

end Monitor

end QuotaWatch
