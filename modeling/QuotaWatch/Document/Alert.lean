/-
# Documents of alerts

The JSON form of alerts. The members of an alert are spread out among those of
the entity that it is about, and a tag tells the kind of entity.

Key definitions: `Status.decode`, `Alert.toJson`, `Alert.decode`,
`AlertRecord.toJson`, `AlertRecord.decode`.
-/
import QuotaWatch.Alert.Processor
import QuotaWatch.Document.Reading

namespace QuotaWatch

open Json
open Time (Timestamp)

namespace Status

def ofWord? (word : String) : Option Status :=
  [raise, continues, fall].find? (·.word == word)

/-- A word, or an object with the word as its one name and nothing behind it. -/
def decode : Decoder Status
  | p, .object [(some word, .null)] => named ofWord? p (ofString word)
  | p, .object [(some word, .object [])] =>
    if p.kept then named ofWord? p (ofString word) else .error .shape
  | p, j => named ofWord? p j

end Status

namespace Alert

def members (a : Alert) : List (Option String × Json) :=
  [member "timestamp" a.timestamp.toJson, member "parameter" (ofString a.parameter),
    member "value" (ofWord a.value), member "status" (ofString a.status.word)]

def toJson (a : Alert) : Json := .object a.members

def decode : Decoder Alert :=
  record
    (need "timestamp" Timestamp.decode (need "parameter" string (need "value" word
      (need "status" Status.decode .nil))))
    fun (timestamp, parameter, value, status, _) => ⟨timestamp, parameter, value, status⟩

end Alert

namespace AlertRecord

def systemTag : String := "systemQuotaAlert"

def workloadTag : String := "instanceQuotaAlert"

def toJson : AlertRecord → Json
  | .system nodeId alert =>
    .object (member "tag" (ofString systemTag) :: member "nodeId" (ofString nodeId) ::
      alert.members)
  | .workload ident alert =>
    .object (member "tag" (ofString workloadTag) :: member "instanceIdent" ident.toJson ::
      alert.members)

/-- The payload of each kind, by its position among the tags. -/
def payload : Nat → Decoder AlertRecord
  | 0 => splitting (need "nodeId" string .nil) Alert.decode fun (nodeId, _) => .system nodeId
  | _ => splitting (need "instanceIdent" Ident.decode .nil) Alert.decode
      fun (ident, _) => .workload ident

def decode : Decoder AlertRecord := tagged "tag" (choice [systemTag, workloadTag]) payload

end AlertRecord

end QuotaWatch
