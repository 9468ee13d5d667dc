/-
# Documents of settings

The JSON form of the settings of a monitor and of the parameters of an instance.

Key definitions: `Settings.toJson`, `Settings.decode`, `InstanceParams.toJson`,
`InstanceParams.decode`.
-/
import QuotaWatch.Settings
import QuotaWatch.Document.Node
import QuotaWatch.Document.Reading
import QuotaWatch.Document.Rule

namespace QuotaWatch

open Json

namespace PartitionChoice

def toJson (p : PartitionChoice) : Json :=
  .object [member "name" (ofString p.name), member "types" (ofList ofString p.types),
    member "path" p.path.toJson]

def decode : Decoder PartitionChoice :=
  record (need "name" string (may "types" (list string) [] (need "path" OsPath.decode .nil)))
    fun (name, types, path, _) => ⟨name, types, path⟩

end PartitionChoice

namespace Settings

def toJson (s : Settings) : Json :=
  .object (member "poll_period_ms" (ofWord s.pollPeriod.millis) ::
    (member? "send_period_ms" ofWord (s.sendPeriod.map (·.millis)) ++
      member? "average_window_ms" ofWord (s.window.map (·.millis)) ++
      member "partitions" (ofList PartitionChoice.toJson s.partitions) ::
      (member? "alert_rules" RuleSet.toJson s.rules ++
        [member "monitoring_buffer" (ofWord s.buffer)])))

def decode : Decoder Settings :=
  record
    (may "poll_period_ms" word 1000 (may "send_period_ms" (optional word) none
      (may "average_window_ms" (optional word) none
        (may "partitions" (list PartitionChoice.decode) []
          (may "alert_rules" (optional RuleSet.decode) none
            (may "monitoring_buffer" word 16 .nil))))))
    fun (pollPeriod, sendPeriod, window, partitions, rules, buffer, _) =>
      ⟨.ofMillis pollPeriod, sendPeriod.map .ofMillis, window.map .ofMillis, partitions, rules,
        buffer⟩

end Settings

namespace WatchedPartition

def toJson (p : WatchedPartition) : Json :=
  .object [member "name" (ofString p.name), member "path" p.path.toJson]

def decode : Decoder WatchedPartition :=
  record (need "name" string (need "path" OsPath.decode .nil)) fun (name, path, _) => ⟨name, path⟩

end WatchedPartition

namespace InstanceParams

def toJson (i : InstanceParams) : Json :=
  .object (member "instance_ident" i.ident.toJson :: member "uid" (ofWord i.uid.toUInt64) ::
    member "gid" (ofWord i.gid.toUInt64) :: (member? "alert_rules" RuleSet.toJson i.rules ++
      [member "partitions" (ofList WatchedPartition.toJson i.partitions)]))

def decode : Decoder InstanceParams :=
  record
    (need "instance_ident" Ident.decode (may "uid" word32 0 (may "gid" word32 0
      (may "alert_rules" (optional RuleSet.decode) none
        (may "partitions" (list WatchedPartition.decode) [] .nil)))))
    fun (ident, uid, gid, rules, partitions, _) => ⟨ident, uid, gid, rules, partitions⟩

end InstanceParams

end QuotaWatch
