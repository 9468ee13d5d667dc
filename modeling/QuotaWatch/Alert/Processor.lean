/-
# Alert processors

A processor is a detector bound to one figure of one entity. It reads its
figure from every reading of the entity and reports alerts under the name of
the figure.

Key definitions: `Parameter`, `Parameter.read`, `Alert`, `AlertRecord`, `Processor`, `Processor.check`.
-/
import QuotaWatch.Alert.Detector

namespace QuotaWatch

open Time

/-- A figure of an entity. -/
inductive Parameter where
  | cpu
  | ram
  | partition (name : String)
  | inTraffic
  | outTraffic
deriving Repr, DecidableEq, Inhabited

namespace Parameter

/-- The name of a figure in alerts; a partition goes by its own. -/
def name : Parameter → String
  | .cpu => "cpu"
  | .ram => "ram"
  | .partition name => name
  | .inTraffic => "inTraffic"
  | .outTraffic => "outTraffic"

/-- The figure in a reading. -/
def read (r : Reading) : Parameter → Option Figure
  | .cpu => some r.cpu
  | .ram => some r.ram
  | .partition name => r.partitionUsed name
  | .inTraffic => some r.inTraffic
  | .outTraffic => some r.outTraffic

end Parameter

/-- What is told about an alarm of a figure. -/
structure Alert where
  timestamp : Timestamp
  parameter : String
  value : Figure
  status : Status
deriving Repr, DecidableEq, Inhabited

/-- An alert together with the entity that it is about. -/
inductive AlertRecord where
  | system (nodeId : String) (alert : Alert)
  | workload (ident : Ident) (alert : Alert)
deriving Repr, DecidableEq, Inhabited

def AlertRecord.alert : AlertRecord → Alert
  | .system _ alert | .workload _ alert => alert

/-- The detector of one figure of one entity. -/
structure Processor where
  /-- The name under which the processor is listed. -/
  name : String
  parameter : Parameter
  detector : Detector
deriving Repr, DecidableEq, Inhabited

namespace Processor

/-- A processor that has seen nothing yet. -/
def fresh (name : String) (parameter : Parameter) (thresholds : Thresholds) : Processor :=
  ⟨name, parameter, { thresholds }⟩

/-- Take in one reading; gives the alert that it sets off, if any. -/
def check (p : Processor) (r : Reading) : Processor × Option Alert :=
  match p.parameter.read r with
  | none => (p, none)
  | some value =>
    let (detector, alarm) := p.detector.check r.timestamp value
    ({ p with detector }, alarm.map fun a => ⟨a.timestamp, p.parameter.name, a.value, a.status⟩)

end Processor

end QuotaWatch
