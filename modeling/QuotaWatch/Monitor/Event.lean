/-
# What a monitor does to the outside

The effects of the monitor's work, in their order: questions to sources, log
notices, alerts, snapshots and counts.

Key definitions: `Event`, `Counter`, `Attempt`.
Key theorems: `Attempt.bind_ok`, `Attempt.bind_error`.
-/
import QuotaWatch.Source.Basic
import QuotaWatch.Log

namespace QuotaWatch

/-- What is counted. -/
inductive Counter where
  | alerts (status : Status)
  | samplingErrors
  | snapshotsSent
  | polls
deriving Repr, DecidableEq

/-- An effect of the monitor's work. -/
inductive Event where
  /-- A source is asked. -/
  | asked (probe : Probe)
  /-- Something is noted in the log. -/
  | noted (notice : Notice)
  /-- An alert is handed to the alert sender. -/
  | alerted (record : AlertRecord)
  /-- A snapshot is handed to the snapshot sender. -/
  | delivered (snapshot : Snapshot)
  | counted (counter : Counter)
deriving Repr

/-- Work that may fail. What it did before it failed remains done. -/
structure Attempt (α : Type) where
  events : List Event := []
  result : Except Fault α

namespace Attempt

/-- Work that succeeds without an effect. -/
def done (a : α) : Attempt α := { result := .ok a }

/-- Work that fails without an effect. -/
def fail (fault : Fault) : Attempt α := { result := .error fault }

/-- One effect. -/
def emit (event : Event) : Attempt Unit := { events := [event], result := .ok () }

/-- Work without an effect. -/
def lift (result : Except Fault α) : Attempt α := { result }

/-- Ask a source. -/
def ask (probe : Probe) (answer : Except SourceFault α) (fault : SourceFault → Fault) : Attempt α :=
  { events := [.asked probe], result := answer.mapError fault }

/-- Go on with the result of work, unless it failed. -/
def andThen (a : Attempt α) (f : α → Attempt β) : Attempt β :=
  match a.result with
  | .ok x => { events := a.events ++ (f x).events, result := (f x).result }
  | .error fault => { events := a.events, result := .error fault }

instance : Monad Attempt where
  pure := done
  bind := andThen

theorem bind_ok {a : Attempt α} {x : α} (f : α → Attempt β) (h : a.result = .ok x) :
    (a >>= f) = { events := a.events ++ (f x).events, result := (f x).result } := by
  simp only [bind, andThen, h]

theorem bind_error {a : Attempt α} {fault : Fault} (f : α → Attempt β) (h : a.result = .error fault) :
    (a >>= f) = { events := a.events, result := .error fault } := by
  simp only [bind, andThen, h]

end Attempt

end QuotaWatch
