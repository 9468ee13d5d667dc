/-
# Building a monitor

The settings are judged, the node is asked for its facts, what the node does not
know is asked of the host, and the rules of the node become its processors. The
first failure ends the work.

Key definitions: `Capacity.gather`, `Blueprint`, `Monitor.build`.
-/
import QuotaWatch.Monitor.Basic

namespace QuotaWatch

namespace Capacity

/-- The partitions to measure: those of the settings with the sizes that the
node knows, or those of the node. -/
def partitionsOf (settings : Settings) (info : NodeInfo) : List PartitionInfo :=
  if settings.partitions.isEmpty then info.partitions
  else settings.partitions.map fun p =>
    ⟨p.name, p.types, p.path, (QuotaWatch.partitionTotal info.partitions p.name).getD 0⟩

/-- The partition at a position with its size, asked of the host where it is not known. -/
def probePartition (a : Answers) (position : Nat) (p : PartitionInfo) : Attempt PartitionInfo :=
  if p.totalSize > 0 then pure p
  else do
    let extent ← Attempt.ask (.disk p.path) (a.disk position p.path)
      (.capacityProbe (.partition p.name))
    pure { p with totalSize := extent.total }

/-- Partitions with their sizes, in order, the first of them at a position. -/
def probePartitions (a : Answers) (position : Nat) :
    List PartitionInfo → Attempt (List PartitionInfo)
  | [] => pure []
  | p :: ps => do
    let p ← probePartition a position p
    let ps ← probePartitions a (position + 1) ps
    pure (p :: ps)

/-- The number of CPUs, asked of the host where the node does not know it. -/
def probeCpus (a : Answers) (info : NodeInfo) : Attempt UInt64 :=
  if info.cpus > 0 then pure info.cpus
  else do
    Attempt.emit (.asked .cpus)
    pure a.cpus

/-- The size of the RAM, asked of the host where the node does not know it. -/
def probeRam (a : Answers) (info : NodeInfo) : Attempt UInt64 :=
  if info.ram > 0 then pure info.ram
  else do
    let extent ← Attempt.ask .memory a.memory (.capacityProbe .ram)
    pure extent.total

/-- What the node can hold at most. -/
def gather (settings : Settings) (info : NodeInfo) (a : Answers) : Attempt Capacity := do
  let cpus ← probeCpus a info
  let ram ← probeRam a info
  let partitions ← probePartitions a 0 (partitionsOf settings info)
  pure ⟨cpus, ram, partitions⟩

end Capacity

/-- What a monitor is built from, besides the sources. -/
structure Blueprint where
  settings : Settings
  /-- The facts of the node, if there is a provider of them. -/
  nodeInfo : Option (Except SourceFault NodeInfo) := none
  /-- The settings of the node, if there is a provider of them. -/
  nodeSettings : Option (Except SourceFault NodeSettings) := none
  watchesTraffic : Bool := false
  sendsAlerts : Bool := false

namespace Monitor

/-- The version that a monitor reports. -/
def version : String := "0.1.0"

/-- The name of the node in those of its processors. -/
def systemLabel : String := "System"

/-- Ask for the facts of the node. -/
def askNodeInfo (b : Blueprint) : Attempt NodeInfo :=
  match b.nodeInfo with
  | none => Attempt.fail (.invalidConfig .noNodeInfo)
  | some answer => Attempt.ask .nodeInfo answer .provider

/-- The rules of the node: those that its settings bring, else those of the monitor's settings. -/
def askRules (b : Blueprint) : Attempt (Option RuleSet) :=
  match b.nodeSettings with
  | none => pure b.settings.rules
  | some answer => do
    let nodeSettings ← Attempt.ask .nodeSettings answer .provider
    pure (nodeSettings.rules.or b.settings.rules)

/-- The processors of the node. -/
def buildSystem (rules : Option RuleSet) (capacity : Capacity) : Attempt (List Processor) :=
  match rules with
  | none => pure []
  | some rules =>
    buildProcessors systemLabel rules capacity (capacity.partitions.map (·.name))

/-- A monitor that has measured nothing yet. -/
def initial (b : Blueprint) (nodeId : String) (capacity : Capacity) (processors : List Processor) :
    Monitor :=
  { nodeId, settings := b.settings, capacity
    watchesTraffic := b.watchesTraffic, sendsAlerts := b.sendsAlerts
    system := Entity.fresh (capacity.partitions.map (·.name)) processors b.settings.window }

/-- Build a monitor. -/
def build (b : Blueprint) (a : Answers) : Attempt Monitor := do
  Attempt.lift b.settings.validate
  let info ← askNodeInfo b
  let capacity ← Capacity.gather b.settings info a
  let rules ← askRules b
  let processors ← buildSystem rules capacity
  Attempt.emit (.noted (.started info.nodeId version processors.length))
  pure (initial b info.nodeId capacity processors)

end Monitor

end QuotaWatch
