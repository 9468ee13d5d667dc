/-
# The monitor

A monitor holds the node and the registered instances. At a poll every entity
fetches its figures, then all processors are run, those of the node first and
then those of the instances in the order of their ids. A snapshot puts the
present readings together.

Key definitions: `Instance`, `Monitor`, `Monitor.poll`, `Monitor.snapshot`, `Monitor.send`.
Key theorems: `Monitor.get?_poll`, `Monitor.system_poll`.
-/
import QuotaWatch.Monitor.Entity
import QuotaWatch.Monitor.Processors
import QuotaWatch.Registry

namespace QuotaWatch

open Time

/-- A registered instance. -/
structure Instance where
  ident : Ident
  uid : UInt32
  gid : UInt32
  partitions : List WatchedPartition
  usage : InstanceUsage := {}
  entity : Entity
deriving Repr, DecidableEq, Inhabited

namespace Instance

/-- An instance as it is registered. -/
def fresh (params : InstanceParams) (processors : List Processor) (retention : Option Span) :
    Instance :=
  { ident := params.ident, uid := params.uid, gid := params.gid, partitions := params.partitions
    entity := Entity.fresh (params.partitions.map (·.name)) processors retention }

/-- The bytes that the owner of the instance uses on its partition at a position. -/
def ownedOn (i : Instance) (a : Answers) (id : String) (position : Nat) (p : WatchedPartition) :
    Except SourceFault UInt64 :=
  a.owned id position p.path i.uid i.gid

/-- The network counters of an instance, where they are watched and there are any. -/
def traffic? (a : Answers) (watched : Bool) (id : String) :
    Option (Except SourceFault (Figure × Figure)) :=
  if watched && a.hasInstanceCounters id then some (a.instanceTraffic id) else none

/-- The usage that a poll leaves: the answer of the source, unless it failed. -/
def usageAfter (i : Instance) (a : Answers) (id : String) : InstanceUsage :=
  match a.usage id i.usage with
  | (usage, none) => usage
  | (_, some _) => i.usage

/-- What a poll fetches for the instance. CPU and RAM come from one answer. -/
def fetches (i : Instance) (a : Answers) (watched : Bool) (id : String) : Fetches :=
  let (usage, fault) := a.usage id i.usage
  let usage? := if fault.isNone then some usage else none
  let traffic? := traffic? a watched id
  { cpu := usage?.map (·.cpu)
    ram := usage?.map (·.ram)
    partitions := i.partitions.mapIdx fun position p => (i.ownedOn a id position p).toOption
    traffic := traffic?.bind (·.toOption)
    questions :=
      (.usage id, fault.map ("cpu/ram", ·)) ::
        (i.partitions.mapIdx fun position p =>
          (.owned p.path i.uid i.gid, Fetches.failure p.name (i.ownedOn a id position p))) ++
        (traffic?.map fun answer =>
          (Probe.instanceTraffic id, Fetches.failure "traffic" answer)).toList }

/-- The instance after a poll. -/
def poll (i : Instance) (a : Answers) (watched : Bool) (id : String) (now : Timestamp) : Instance :=
  { i with
    usage := i.usageAfter a id
    entity := i.entity.poll (i.fetches a watched id) now }

/-- The reading of the instance as part of a snapshot. -/
def toReading (i : Instance) : InstanceReading := ⟨i.ident, i.entity.reading⟩

end Instance

/-- A monitor with what it holds. -/
structure Monitor where
  nodeId : String
  settings : Settings
  capacity : Capacity
  /-- Whether network counters are asked for. -/
  watchesTraffic : Bool := false
  /-- Whether there is an alert sender. -/
  sendsAlerts : Bool := false
  system : Entity
  instances : Registry Instance := {}

namespace Monitor

/-- The name of the node as an entity. -/
def systemName : String := "system"

/-- What a poll fetches for the node. -/
def systemFetches (m : Monitor) (a : Answers) : Fetches :=
  let disk (position : Nat) (p : PartitionInfo) := (a.disk position p.path).map (·.used)
  let traffic? := if m.watchesTraffic then some a.nodeTraffic else none
  { cpu := a.cpuPercent.toOption.map cpuFigure
    ram := a.memory.toOption.map (·.used)
    partitions := m.capacity.partitions.mapIdx fun position p => (disk position p).toOption
    traffic := traffic?.bind (·.toOption)
    questions :=
      (.cpuPercent, Fetches.failure "cpu" a.cpuPercent) ::
        (.memory, Fetches.failure "ram" a.memory) ::
        (m.capacity.partitions.mapIdx fun position p =>
          (.disk p.path, Fetches.failure p.name (disk position p))) ++
        (traffic?.map fun answer => (Probe.nodeTraffic, Fetches.failure "traffic" answer)).toList }

/-- The node after a poll. -/
def systemPolled (m : Monitor) (a : Answers) (now : Timestamp) : Entity :=
  m.system.poll (m.systemFetches a) now

/-- The instances after a poll. -/
def instancesPolled (m : Monitor) (a : Answers) (now : Timestamp) : Registry Instance :=
  m.instances.mapValues fun id i => i.poll a m.watchesTraffic id now

/-- The effects of an alert: it is noted, counted, and sent if there is a sender. -/
def alertEvents (m : Monitor) (notice : Notice) (record : AlertRecord) : List Event :=
  .noted notice :: .counted (.alerts record.alert.status) ::
    if m.sendsAlerts then [.alerted record] else []

/-- The effects of the node's alerts at a poll. -/
def systemAlertEvents (m : Monitor) (a : Answers) (now : Timestamp) : List Event :=
  (m.system.alerts (m.systemFetches a) now).flatMap fun (name, alert) =>
    m.alertEvents (.systemAlert name alert) (.system m.nodeId alert)

/-- The effects of the alerts of one instance at a poll. -/
def instanceAlertEvents (m : Monitor) (a : Answers) (now : Timestamp) (id : String) (i : Instance) :
    List Event :=
  (i.entity.alerts (i.fetches a m.watchesTraffic id) now).flatMap fun (name, alert) =>
    m.alertEvents (.instanceAlert name i.ident alert) (.workload i.ident alert)

/-- The effects of fetching at a poll. -/
def fetchEvents (m : Monitor) (a : Answers) : List Event :=
  .asked .prefetch :: (m.systemFetches a).events systemName ++
    m.instances.entries.flatMap fun (id, i) => (i.fetches a m.watchesTraffic id).events id

/-- The effects of a poll. All figures are fetched before a processor is run. -/
def pollEvents (m : Monitor) (a : Answers) (now : Timestamp) : List Event :=
  m.fetchEvents a ++ m.systemAlertEvents a now ++
    (m.instances.entries.flatMap fun (id, i) => m.instanceAlertEvents a now id i) ++
    [.noted (.polled m.nodeId (m.systemPolled a now).reading m.instances.entries.length),
      .counted .polls]

/-- The monitor after a poll. -/
def polled (m : Monitor) (a : Answers) (now : Timestamp) : Monitor :=
  { m with system := m.systemPolled a now, instances := m.instancesPolled a now }

/-- Poll every entity once. -/
def poll (m : Monitor) (a : Answers) (now : Timestamp) : Monitor × List Event :=
  (m.polled a now, m.pollEvents a now)

/-- The present readings put together. -/
def snapshot (m : Monitor) (now : Timestamp) : Snapshot :=
  { nodeId := m.nodeId
    node := m.system.reading
    instances := m.instances.values.map (·.toReading)
    timestamp := now }

/-- The effects of sending a snapshot. -/
def sendEvents (m : Monitor) (now : Timestamp) : List Event :=
  [.delivered (m.snapshot now), .counted .snapshotsSent]

/-- The number of processors of all entities. -/
def processorCount (m : Monitor) : Nat :=
  m.system.processors.length + (m.instances.values.map (·.entity.processors.length)).foldr (· + ·) 0

/-- The names of all processors, those of the node first. -/
def processorNames (m : Monitor) : List String :=
  (m.system.processors ++ m.instances.values.flatMap (·.entity.processors)).map (·.name)

/-- The average of one instance. -/
def instanceAverage (m : Monitor) (id : String) : Except Fault Reading :=
  match m.instances.get? id with
  | none => .error (.unknownInstance id)
  | some i => i.entity.average id

/-- The average of an instance as part of a snapshot. -/
def averageOf (id : String) (i : Instance) : Except Fault InstanceReading :=
  (i.entity.average id).map (⟨i.ident, ·⟩)

/-- The averages of the node and of all instances; the first one missing counts. -/
def average (m : Monitor) : Except Fault Snapshot := do
  let node ← m.system.average systemName
  let instances ← m.instances.entries.mapM fun (id, i) => averageOf id i
  .ok ⟨m.nodeId, node, instances, node.timestamp⟩

theorem system_poll (m : Monitor) (a : Answers) (now : Timestamp) :
    (m.poll a now).1.system = m.system.poll (m.systemFetches a) now := rfl

/-- A poll changes each instance on its own. -/
theorem get?_poll (m : Monitor) (a : Answers) (now : Timestamp) (id : String) :
    (m.poll a now).1.instances.get? id =
      (m.instances.get? id).map fun i => i.poll a m.watchesTraffic id now := by
  simp [poll, polled, instancesPolled]

end Monitor

end QuotaWatch
