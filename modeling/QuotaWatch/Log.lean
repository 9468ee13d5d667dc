/-
# Log records

What the monitor and the agent note about their work, as events with their
facts. A record is the event with its level, its text and its fields.

Key definitions: `Notice`, `Notice.record`, `LogRecord`.
-/
import QuotaWatch.Alert.Processor
import QuotaWatch.Fault
import QuotaWatch.Time.Printer

namespace QuotaWatch

open Time

/-- How much a record matters. -/
inductive Level where
  | trace
  | debug
  | info
  | warn
  | error
deriving Repr, DecidableEq

def Level.word : Level → String
  | .trace => "trace"
  | .debug => "debug"
  | .info => "info"
  | .warn => "warn"
  | .error => "error"

/-- A log record; all fields are texts. -/
structure LogRecord where
  level : Level
  message : String
  fields : List (String × String) := []
deriving Repr, DecidableEq

/-- What is noted. -/
inductive Notice where
  | started (node version : String) (processors : Nat)
  | loopStarted (pollPeriod sendPeriod : Millis)
  | loopStopped
  /-- The loop broke off; the runtime says how. -/
  | loopBroken (error : String)
  | closed (node reason : String)
  | stopped (node : String)
  | instanceStarted (node id : String) (processors : Nat)
  | instanceStopped (node id : String)
  | instanceKnown (id : String)
  | instanceNotKnown (id : String)
  | ruleSkipped (entity partition : String)
  | samplingFailed (entity parameter : String) (fault : SourceFault)
  | polled (node : String) (reading : Reading) (instances : Nat)
  | systemAlert (processor : String) (alert : Alert)
  | instanceAlert (processor : String) (ident : Ident) (alert : Alert)
  | quotaAlert (node entity : String) (alert : Alert)
  | snapshotQueueFull (timestamp : Timestamp)
  | snapshotQueueClosed
  | alertQueueClosed
  | snapshotForwarded (instances : Nat) (timestamp : Timestamp)
  | startRejected (id : String) (fault : Fault)
deriving Repr

namespace Notice

/-- A number as a field. -/
def showNat (n : Nat) : String := String.ofList (Decimal.ofNat n)

/-- The fields of an alert of a processor. -/
def alertFields (processor : String) (a : Alert) : List (String × String) :=
  [("alert", processor), ("value", showWord a.value), ("status", a.status.word)]

/-- The record of a notice. -/
def record : Notice → LogRecord
  | .started node version processors =>
    ⟨.info, "Resource monitor started",
      [("event", "monitor_started"), ("node", node), ("monitor_version", version),
        ("alert_processors", showNat processors)]⟩
  | .loopStarted pollPeriod sendPeriod =>
    ⟨.info, "Starting resource monitor loop",
      [("poll_period_ms", showWord pollPeriod), ("send_period_ms", showWord sendPeriod)]⟩
  | .loopStopped => ⟨.info, "Shutting down resource monitor loop", []⟩
  | .loopBroken error => ⟨.warn, "Resource monitor loop ended abnormally", [("error", error)]⟩
  | .closed node reason =>
    ⟨.info, "Resource monitor closed",
      [("event", "monitor_closed"), ("node", node), ("reason", reason)]⟩
  | .stopped node => ⟨.info, "Resource monitor stopped", [("node", node)]⟩
  | .instanceStarted node id processors =>
    ⟨.info, "Instance monitoring started",
      [("event", "instance_monitor_started"), ("node", node), ("instance_id", id),
        ("alert_processors", showNat processors)]⟩
  | .instanceStopped node id =>
    ⟨.info, "Instance monitoring stopped",
      [("event", "instance_monitor_stopped"), ("node", node), ("instance_id", id)]⟩
  | .instanceKnown id => ⟨.warn, "Instance monitor already started", [("instance_id", id)]⟩
  | .instanceNotKnown id => ⟨.debug, "Instance is not monitored", [("instance_id", id)]⟩
  | .ruleSkipped entity partition =>
    ⟨.debug, "Skipping rule for unmonitored partition",
      [("entity", entity), ("partition", partition)]⟩
  | .samplingFailed entity parameter fault =>
    ⟨.error, "Failed to sample, keeping last value",
      [("entity", entity), ("parameter", parameter), ("error", fault.message)]⟩
  | .polled node r instances =>
    ⟨.debug, "Poll tick complete",
      [("node", node), ("cpu", showWord r.cpu), ("ram", showWord r.ram),
        ("in_traffic", showWord r.inTraffic), ("out_traffic", showWord r.outTraffic),
        ("instances", showNat instances)]⟩
  | .systemAlert processor alert => ⟨.debug, "System quota alert", alertFields processor alert⟩
  | .instanceAlert processor ident alert =>
    ⟨.debug, "Instance quota alert", ("instance", ident.display) :: alertFields processor alert⟩
  | .quotaAlert node entity a =>
    ⟨if a.status = .raise then .warn else .info,
      if a.status = .raise then "Quota alert raised" else "Quota alert",
      [("event", "quota_alert"), ("node", node), ("entity", entity), ("parameter", a.parameter),
        ("value", showWord a.value), ("status", a.status.word),
        ("timestamp", a.timestamp.display)]⟩
  | .snapshotQueueFull timestamp =>
    ⟨.warn, "Monitoring channel full, dropping snapshot", [("timestamp", timestamp.display)]⟩
  | .snapshotQueueClosed => ⟨.debug, "Monitoring channel closed, dropping snapshot", []⟩
  | .alertQueueClosed => ⟨.debug, "Alert channel closed, dropping alert", []⟩
  | .snapshotForwarded instances timestamp =>
    ⟨.debug, "Snapshot delivered",
      [("instances", showNat instances), ("timestamp", timestamp.display)]⟩
  | .startRejected id fault =>
    ⟨.warn, "Rejected instance rules", [("instance_id", id), ("error", fault.message)]⟩

/-- An alert told to the log, under the name of its entity. -/
def ofAlert (node : String) : AlertRecord → Notice
  | .system _ alert => .quotaAlert node "system" alert
  | .workload ident alert => .quotaAlert node ident.display alert

end Notice

end QuotaWatch
