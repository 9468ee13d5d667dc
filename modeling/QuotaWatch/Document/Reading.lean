/-
# Documents of readings

The JSON form of idents, readings and snapshots. The members of a reading are
spread out among those of the instance that it belongs to.

Key definitions: `Ident.toJson`, `Ident.decode`, `Reading.toJson`,
`Reading.decode`, `Snapshot.toJson`, `Snapshot.decode`.
-/
import QuotaWatch.Reading
import QuotaWatch.Time.Printer
import QuotaWatch.Time.Reader
import QuotaWatch.Json.Decoder
import QuotaWatch.Json.Writer

namespace QuotaWatch

open Json

namespace Time.Timestamp

def toJson (t : Timestamp) : Json := ofString t.toText

def decode : Decoder Timestamp := named ofText?

end Time.Timestamp

open Time (Timestamp)

namespace Ident

def toJson (i : Ident) : Json :=
  .object [member "serviceId" (ofString i.service), member "subjectId" (ofString i.subject),
    member "instance" (ofWord i.number)]

def decode : Decoder Ident :=
  record (need "serviceId" string (need "subjectId" string (need "instance" word .nil)))
    fun (service, subject, number, _) => ⟨service, subject, number⟩

end Ident

namespace PartitionUsage

def toJson (p : PartitionUsage) : Json :=
  .object [member "name" (ofString p.name), member "usedSize" (ofWord p.used)]

def decode : Decoder PartitionUsage :=
  record (need "name" string (need "usedSize" word .nil)) fun (name, used, _) => ⟨name, used⟩

end PartitionUsage

namespace Reading

def members (r : Reading) : List (Option String × Json) :=
  [member "cpu" (ofWord r.cpu), member "ram" (ofWord r.ram),
    member "partitions" (ofList PartitionUsage.toJson r.partitions),
    member "inTraffic" (ofWord r.inTraffic), member "outTraffic" (ofWord r.outTraffic),
    member "timestamp" r.timestamp.toJson]

def toJson (r : Reading) : Json := .object r.members

def decode : Decoder Reading :=
  record
    (need "cpu" word (need "ram" word (need "partitions" (list PartitionUsage.decode)
      (need "inTraffic" word (need "outTraffic" word
        (need "timestamp" Timestamp.decode .nil))))))
    fun (cpu, ram, partitions, inTraffic, outTraffic, timestamp, _) =>
      ⟨cpu, ram, partitions, inTraffic, outTraffic, timestamp⟩

end Reading

namespace InstanceReading

def toJson (i : InstanceReading) : Json :=
  .object (member "instanceIdent" i.ident.toJson :: i.reading.members)

def decode : Decoder InstanceReading :=
  splitting (need "instanceIdent" Ident.decode .nil) Reading.decode
    fun (ident, _) reading => ⟨ident, reading⟩

end InstanceReading

namespace Snapshot

def toJson (s : Snapshot) : Json :=
  .object [member "nodeId" (ofString s.nodeId), member "nodeData" s.node.toJson,
    member "instances" (ofList InstanceReading.toJson s.instances),
    member "timestamp" s.timestamp.toJson]

def decode : Decoder Snapshot :=
  record
    (need "nodeId" string (need "nodeData" Reading.decode
      (need "instances" (list InstanceReading.decode) (need "timestamp" Timestamp.decode .nil))))
    fun (nodeId, node, instances, timestamp, _) => ⟨nodeId, node, instances, timestamp⟩

end Snapshot

end QuotaWatch
