/-
# Starting and stopping instances

An id names one directory below the root of the usage source, so it is a single
component of a path. Starting an instance that is registered changes nothing,
and neither does stopping one that is not.

Key definitions: `isInstanceId`, `Monitor.start`, `Monitor.stop`.
Key theorems: `Monitor.start_known`, `Monitor.stop_unknown`.
-/
import QuotaWatch.Monitor.Basic

namespace QuotaWatch

/-- Whether a text names a single directory. -/
def isInstanceId (id : String) : Bool :=
  !id.isEmpty && id != "." && id != ".." &&
    id.toList.all fun c => c != '/' && c != '\\' && c != '\x00'

namespace Monitor

/-- What a call of the monitor leaves: the monitor, the effects and the result. -/
structure Outcome where
  monitor : Monitor
  events : List Event := []
  result : Except Fault Unit := .ok ()

/-- The processors of an instance that is to be registered. -/
def buildInstance (m : Monitor) (id : String) (params : InstanceParams) : Attempt (List Processor) :=
  match params.rules with
  | none => pure []
  | some rules => buildProcessors id rules m.capacity (params.partitions.map (·.name))

/-- Register an instance. -/
def start (m : Monitor) (id : String) (params : InstanceParams) : Outcome :=
  if !isInstanceId id then { monitor := m, result := .error (.invalidInstanceId id) }
  else if m.instances.contains id then { monitor := m, events := [.noted (.instanceKnown id)] }
  else
    let built := m.buildInstance id params
    match built.result with
    | .error fault => { monitor := m, events := built.events, result := .error fault }
    | .ok processors =>
      { monitor :=
          { m with
            instances := m.instances.insert id (Instance.fresh params processors m.settings.window) }
        events := built.events ++ [.noted (.instanceStarted m.nodeId id processors.length)] }

/-- Take an instance out of the registry. -/
def stop (m : Monitor) (id : String) : Outcome :=
  if m.instances.contains id then
    { monitor := { m with instances := m.instances.erase id }
      events := [.noted (.instanceStopped m.nodeId id)] }
  else { monitor := m, events := [.noted (.instanceNotKnown id)] }

/-- Starting a registered instance leaves the monitor as it is. -/
theorem start_known {m : Monitor} {id : String} (params : InstanceParams)
    (h : m.instances.contains id = true) : (m.start id params).monitor = m := by
  unfold start
  split
  · rfl
  · rfl

/-- Stopping an instance that is not registered leaves the monitor as it is. -/
theorem stop_unknown {m : Monitor} {id : String} (h : m.instances.contains id = false) :
    (m.stop id).monitor = m := by
  simp [stop, h]

end Monitor

end QuotaWatch
