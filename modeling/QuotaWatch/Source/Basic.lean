/-
# Sources of figures

What the monitor asks for at a tick. The answers of one tick are a record of
plain values and functions, so a run is determined by the answers given. A
source may answer the same question differently each time it is asked, so there
is an answer for every place that asks.

Key definitions: `Answers`, `Sources`, `InstanceUsage`, `Probe`, `IoFault`.
-/
import QuotaWatch.Reading
import QuotaWatch.Node
import QuotaWatch.Fault

namespace QuotaWatch

open Time

/-- Why a file or a directory cannot be read. -/
inductive IoFault where
  | notFound
  | alreadyThere
  | notDirectory
  | isDirectory
  | nameTooLong
  | tooManyLinks
  | zeroInPath
  | notText
deriving Repr, DecidableEq

def IoFault.message : IoFault → String
  | .notFound => "No such file or directory (os error 2)"
  | .alreadyThere => "File exists (os error 17)"
  | .notDirectory => "Not a directory (os error 20)"
  | .isDirectory => "Is a directory (os error 21)"
  | .nameTooLong => "File name too long (os error 36)"
  | .tooManyLinks => "Too many levels of symbolic links (os error 40)"
  | .zeroInPath => "file name contained an unexpected NUL byte"
  | .notText => "stream did not contain valid UTF-8"

/-- A size and how much of it is used. -/
structure Extent where
  total : UInt64
  used : UInt64
deriving Repr, DecidableEq, Inhabited

/-- CPU and RAM of an instance, with the counter behind the next CPU figure. -/
structure InstanceUsage where
  cpu : Figure := 0
  ram : Figure := 0
  /-- CPU time in microseconds at the last sample. -/
  counter : Option UInt64 := none
  sampledAt : Option Timestamp := none
deriving Repr, DecidableEq, Inhabited

/-- The answers of network counters, in bytes received and sent. -/
structure TrafficAnswers where
  node : Except SourceFault (Figure × Figure)
  workload : String → Except SourceFault (Figure × Figure)
  /-- Whether instances have counters of their own. -/
  hasInstanceCounters : Bool

/-- The answers of all sources at one tick, for every place that asks. -/
structure Answers where
  cpus : UInt64
  /-- The share of the node's CPU in percent. -/
  cpuPercent : Except SourceFault Float
  memory : Except SourceFault Extent
  /-- The filesystem that holds a path, asked for the partition of the node at a position. -/
  disk : Nat → OsPath → Except SourceFault Extent
  /-- The usage of an instance, from the usage before; a source that fails may
  have written to it all the same. -/
  usage : String → InstanceUsage → InstanceUsage × Option SourceFault
  /-- The bytes below a path that belong to a user or a group, asked for the
  partition of an instance at a position. -/
  owned : String → Nat → OsPath → UInt32 → UInt32 → Except SourceFault UInt64
  nodeTraffic : Except SourceFault (Figure × Figure)
  instanceTraffic : String → Except SourceFault (Figure × Figure)
  /-- Whether instances have counters of their own, asked for an instance. -/
  hasInstanceCounters : String → Bool

/-- Sources whose answers depend on the question alone. -/
structure Sources where
  cpus : UInt64
  /-- The share of the node's CPU in percent. -/
  cpuPercent : Except SourceFault Float
  memory : Except SourceFault Extent
  /-- The filesystem that holds a path. -/
  disk : OsPath → Except SourceFault Extent
  /-- The usage of an instance, from the usage before; a source that fails may
  have written to it all the same. -/
  usage : String → InstanceUsage → InstanceUsage × Option SourceFault
  /-- The bytes below a path that belong to a user or a group. -/
  owned : OsPath → UInt32 → UInt32 → Except SourceFault UInt64
  traffic : TrafficAnswers

/-- The answers of sources, the same for every place that asks. -/
def Sources.answers (s : Sources) : Answers :=
  { cpus := s.cpus
    cpuPercent := s.cpuPercent
    memory := s.memory
    disk := fun _ path => s.disk path
    usage := s.usage
    owned := fun _ _ path uid gid => s.owned path uid gid
    nodeTraffic := s.traffic.node
    instanceTraffic := s.traffic.workload
    hasInstanceCounters := fun _ => s.traffic.hasInstanceCounters }

instance : Coe Sources Answers := ⟨Sources.answers⟩

/-- A question to a source. -/
inductive Probe where
  | prefetch
  | cpus
  | cpuPercent
  | memory
  | disk (path : OsPath)
  | usage (id : String)
  | owned (path : OsPath) (uid gid : UInt32)
  | nodeTraffic
  | instanceTraffic (id : String)
  | nodeInfo
  | nodeSettings
deriving Repr, DecidableEq

/-- Network counters of the node alone: they know no instance. -/
def TrafficAnswers.nodeOnly (node : Except SourceFault (Figure × Figure)) : TrafficAnswers where
  node := node
  workload := fun id => .error (.unknownInstance id)
  hasInstanceCounters := false

end QuotaWatch
