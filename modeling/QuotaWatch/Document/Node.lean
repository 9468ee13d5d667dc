/-
# Documents of nodes

The JSON form of what is known of a node.

Key definitions: `OsPath.toJson`, `OsPath.decode`, `NodeInfo.toJson`, `NodeInfo.decode`,
`Capacity.toJson`, `Capacity.decode`.
-/
import QuotaWatch.Node
import QuotaWatch.Json.Decoder
import QuotaWatch.Json.Writer

namespace QuotaWatch

open Json

namespace OsPath

/-- A path that is no text has no place in a document. -/
def toJson (p : OsPath) : Json := .text p.text?

def decode : Decoder OsPath := fun p j => (string p j).map ofText

end OsPath

namespace PartitionInfo

def toJson (p : PartitionInfo) : Json :=
  .object [member "name" (ofString p.name), member "types" (ofList ofString p.types),
    member "path" p.path.toJson, member "totalSize" (ofWord p.totalSize)]

def decode : Decoder PartitionInfo :=
  record
    (need "name" string (may "types" (list string) []
      (need "path" OsPath.decode (may "totalSize" word 0 .nil))))
    fun (name, types, path, totalSize, _) => ⟨name, types, path, totalSize⟩

end PartitionInfo

namespace NodeInfo

def toJson (n : NodeInfo) : Json :=
  .object [member "nodeId" (ofString n.nodeId), member "nodeType" (ofString n.nodeType),
    member "numCpus" (ofWord n.cpus), member "totalRam" (ofWord n.ram),
    member "partitions" (ofList PartitionInfo.toJson n.partitions)]

def decode : Decoder NodeInfo :=
  record
    (need "nodeId" string (may "nodeType" string "" (may "numCpus" word 0
      (may "totalRam" word 0 (may "partitions" (list PartitionInfo.decode) [] .nil)))))
    fun (nodeId, nodeType, cpus, ram, partitions, _) => ⟨nodeId, nodeType, cpus, ram, partitions⟩

end NodeInfo

namespace Capacity

def toJson (c : Capacity) : Json :=
  .object [member "numCpus" (ofWord c.cpus), member "totalRam" (ofWord c.ram),
    member "partitions" (ofList PartitionInfo.toJson c.partitions)]

def decode : Decoder Capacity :=
  record
    (need "numCpus" word (need "totalRam" word
      (need "partitions" (list PartitionInfo.decode) .nil)))
    fun (cpus, ram, partitions, _) => ⟨cpus, ram, partitions⟩

end Capacity

end QuotaWatch
