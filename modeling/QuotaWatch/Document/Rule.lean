/-
# Documents of rules

The JSON form of rules and rule sets. A rule is an object with its kind among
the bounds; a partition rule has the name of the partition there too.

Key definitions: `Rule.toJson`, `Rule.decode`, `RuleSet.toJson`, `RuleSet.decode`.
-/
import QuotaWatch.Alert.RuleSet
import QuotaWatch.Json.Decoder
import QuotaWatch.Json.Writer

namespace QuotaWatch

open Json

namespace Bounds

def members (b : Bounds) : List (Option String × Json) :=
  [member "min_timeout_ms" (ofWord b.timeout.millis), member "min_threshold" (ofFloat b.min),
    member "max_threshold" (ofFloat b.max)]

def decode : Decoder Bounds :=
  record (may "min_timeout_ms" word 0 (need "min_threshold" float (need "max_threshold" float .nil)))
    fun (timeout, min, max, _) => ⟨.ofMillis timeout, min, max⟩

end Bounds

namespace Rule

/-- The kind as written in documents. -/
def kind : Rule → String
  | .absolute _ => "absolute"
  | .relative _ => "relative"

def members (r : Rule) : List (Option String × Json) :=
  member "kind" (ofString r.kind) :: r.bounds.members

def toJson (r : Rule) : Json := .object r.members

/-- The rule of each kind, by its position among the kinds. -/
def payload (kind : Nat) : Decoder Rule := fun p j =>
  (Bounds.decode p j).map (if kind == 0 then .absolute else .relative)

def decode : Decoder Rule := tagged "kind" (choice ["absolute", "relative"]) payload

end Rule

namespace PartitionRule

def toJson (p : PartitionRule) : Json :=
  .object (member "name" (ofString p.name) :: p.rule.members)

def decode : Decoder PartitionRule :=
  splitting (need "name" string .nil) Rule.decode fun (name, _) rule => ⟨name, rule⟩

end PartitionRule

namespace RuleSet

def toJson (r : RuleSet) : Json :=
  .object (member? "cpu" Rule.toJson r.cpu ++ member? "ram" Rule.toJson r.ram ++
    (if r.partitions.isEmpty then []
      else [member "partitions" (ofList PartitionRule.toJson r.partitions)]) ++
    member? "in_traffic" Rule.toJson r.inTraffic ++
    member? "out_traffic" Rule.toJson r.outTraffic)

def decode : Decoder RuleSet :=
  record
    (may "cpu" (optional Rule.decode) none (may "ram" (optional Rule.decode) none
      (may "partitions" (list PartitionRule.decode) []
        (may "in_traffic" (optional Rule.decode) none
          (may "out_traffic" (optional Rule.decode) none .nil)))))
    fun (cpu, ram, partitions, inTraffic, outTraffic, _) =>
      ⟨cpu, ram, partitions, inTraffic, outTraffic⟩

end RuleSet

namespace NodeSettings

def toJson (n : NodeSettings) : Json :=
  .object (member "version" (ofString n.version) :: member? "alert_rules" RuleSet.toJson n.rules)

def decode : Decoder NodeSettings :=
  record (may "version" string "" (may "alert_rules" (optional RuleSet.decode) none .nil))
    fun (version, rules, _) => ⟨version, rules⟩

end NodeSettings

end QuotaWatch
