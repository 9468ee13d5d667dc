/-
# Nodes

What is known of a node before anything is measured.

Key definitions: `PartitionInfo`, `NodeInfo`, `Capacity`, `Capacity.partitionTotal`.
-/
import QuotaWatch.Source.Path

namespace QuotaWatch

/-- A partition of the node. A size of zero is not known. -/
structure PartitionInfo where
  name : String
  types : List String := []
  path : OsPath
  totalSize : UInt64 := 0
deriving Repr, DecidableEq, Inhabited

/-- What is told about the node. Zero stands for what is not known. -/
structure NodeInfo where
  nodeId : String
  nodeType : String := ""
  cpus : UInt64 := 0
  ram : UInt64 := 0
  partitions : List PartitionInfo := []
deriving Repr, DecidableEq, Inhabited

/-- What the node can hold at most, settled once. -/
structure Capacity where
  cpus : UInt64
  ram : UInt64
  partitions : List PartitionInfo
deriving Repr, DecidableEq, Inhabited

/-- The size of the first partition of a name. -/
def partitionTotal (partitions : List PartitionInfo) (name : String) : Option UInt64 :=
  (partitions.find? (·.name == name)).map (·.totalSize)

/-- The size of the first partition of a name. -/
def Capacity.partitionTotal (c : Capacity) (name : String) : Option UInt64 :=
  QuotaWatch.partitionTotal c.partitions name

end QuotaWatch
