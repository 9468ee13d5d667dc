/-
# Measured entities

The node and each of its instances are measured in the same way. A poll fetches
figures, keeps the last value of a figure that could not be fetched, feeds the
averaging window once anything has been fetched, and runs the processors.

Key definitions: `Fetches`, `Reading.refresh`, `Entity`, `Entity.poll`,
`Entity.alerts`, `Entity.average`.
Key theorems: `Entity.reading_poll`, `Reading.names_refresh`.
-/
import QuotaWatch.Monitor.Event
import QuotaWatch.Window

namespace QuotaWatch

open Time

/-- What was fetched for an entity at one poll; a figure that is missing could
not be fetched. -/
structure Fetches where
  cpu : Option Figure
  ram : Option Figure
  partitions : List (Option Figure)
  traffic : Option (Figure × Figure)
  /-- The questions asked, each with the parameter and the fault where it failed. -/
  questions : List (Probe × Option (String × SourceFault))

namespace Fetches

/-- Whether anything was fetched. -/
def anySucceeded (f : Fetches) : Bool :=
  f.cpu.isSome || f.ram.isSome || f.partitions.any (·.isSome) || f.traffic.isSome

/-- A failed answer under the name of its parameter. -/
def failure (parameter : String) : Except SourceFault α → Option (String × SourceFault)
  | .ok _ => none
  | .error fault => some (parameter, fault)

/-- The effects of fetching for an entity. -/
def events (f : Fetches) (entity : String) : List Event :=
  f.questions.flatMap fun (probe, failed) =>
    .asked probe :: match failed with
      | none => []
      | some (parameter, fault) =>
        [.noted (.samplingFailed entity parameter fault), .counted .samplingErrors]

end Fetches

/-- Fetched figures over those of the same position; the others stay. -/
def refreshPartitions : List PartitionUsage → List (Option Figure) → List PartitionUsage
  | p :: ps, figure :: figures => { p with used := figure.getD p.used } :: refreshPartitions ps figures
  | ps, _ => ps

/-- The reading after a poll. -/
def Reading.refresh (r : Reading) (f : Fetches) (now : Timestamp) : Reading :=
  { cpu := f.cpu.getD r.cpu
    ram := f.ram.getD r.ram
    partitions := refreshPartitions r.partitions f.partitions
    inTraffic := (f.traffic.map (·.1)).getD r.inTraffic
    outTraffic := (f.traffic.map (·.2)).getD r.outTraffic
    timestamp := now }

/-- The names and the order of the partitions never change. -/
theorem refreshPartitions_names : ∀ (ps : List PartitionUsage) (figures : List (Option Figure)),
    (refreshPartitions ps figures).map (·.name) = ps.map (·.name)
  | [], _ => by simp [refreshPartitions]
  | _ :: _, [] => by simp [refreshPartitions]
  | p :: ps, figure :: figures => by simp [refreshPartitions, refreshPartitions_names ps figures]

theorem Reading.names_refresh (r : Reading) (f : Fetches) (now : Timestamp) :
    (r.refresh f now).partitions.map (·.name) = r.partitions.map (·.name) :=
  refreshPartitions_names _ _

/-- What is measured, with its window and its processors. -/
structure Entity where
  reading : Reading
  /-- Whether anything has ever been fetched. -/
  sampled : Bool := false
  window : Option Window := none
  processors : List Processor := []
deriving Repr, DecidableEq, Inhabited

namespace Entity

/-- An entity of which nothing is known yet. -/
def fresh (partitions : List String) (processors : List Processor) (retention : Option Span) :
    Entity :=
  { reading := Reading.zero partitions
    window := retention.map fun r => { retention := r }
    processors }

/-- The entity after a poll. -/
def poll (e : Entity) (f : Fetches) (now : Timestamp) : Entity :=
  let reading := e.reading.refresh f now
  let sampled := e.sampled || f.anySucceeded
  { reading, sampled
    window := if sampled then e.window.map (·.push reading) else e.window
    processors := e.processors.map fun p => (p.check reading).1 }

/-- The alerts of a poll, each with the name of its processor. -/
def alerts (e : Entity) (f : Fetches) (now : Timestamp) : List (String × Alert) :=
  e.processors.filterMap fun p => (p.check (e.reading.refresh f now)).2.map (p.name, ·)

/-- The average of the window; `name` is the entity in a fault. -/
def average (e : Entity) (name : String) : Except Fault Reading :=
  match e.window with
  | none => .error .averagingDisabled
  | some window => window.average name

theorem reading_poll (e : Entity) (f : Fetches) (now : Timestamp) :
    (e.poll f now).reading = e.reading.refresh f now := rfl

end Entity

end QuotaWatch
