/-
# Metrics

The counters and gauges of a monitor under the names by which they are
published, and the lines that describe them on the page for collectors.

Assumed of the metrics library: its encoder writes any metrics but those without a name or
without a sample, and what is gathered has no metric without a sample.

Key definitions: `MetricKind`, `metrics`, `metricsPage?`, `Monitor.gauges`, `tally`.
Key theorems: `tally_append`.
-/
import QuotaWatch.Monitor.Basic

namespace QuotaWatch

/-- The kind of a metric. -/
inductive MetricKind where
  | counter
  | gauge
  | histogram
deriving Repr, DecidableEq

def MetricKind.word : MetricKind → String
  | .counter => "counter"
  | .gauge => "gauge"
  | .histogram => "histogram"

/-- A published metric. -/
structure Metric where
  name : String
  kind : MetricKind
  help : String
deriving Repr, DecidableEq

/-- The metrics in the order of their names. -/
def metrics : List Metric :=
  [⟨"resource_monitor_alert_processors", .gauge, "Number of registered alert processors"⟩,
    ⟨"resource_monitor_alerts_total", .counter, "Quota alerts emitted, by status"⟩,
    ⟨"resource_monitor_instances_monitored", .gauge, "Number of instances currently monitored"⟩,
    ⟨"resource_monitor_poll_latency_seconds", .histogram, "Time spent in one poll tick"⟩,
    ⟨"resource_monitor_sampling_errors_total", .counter, "Per-metric sampling failures"⟩,
    ⟨"resource_monitor_snapshots_sent_total", .counter,
      "Node monitoring snapshots handed to the sender"⟩]

/-- The lines that describe a metric. -/
def Metric.lines (m : Metric) : List String :=
  ["# HELP " ++ m.name ++ " " ++ m.help, "# TYPE " ++ m.name ++ " " ++ m.kind.word]

/-- The description of metrics, as a page; a metric without a name cannot be described. -/
def metricsPage? (ms : List Metric) : Option String :=
  if ms.any (·.name.isEmpty) then none
  else some (String.join ((ms.flatMap Metric.lines).map (· ++ "\n")))

/-- How often something was counted. -/
def tally (c : Counter) (events : List Event) : Nat :=
  (events.filter fun
    | .counted d => c = d
    | _ => false).length

theorem tally_append (c : Counter) (first rest : List Event) :
    tally c (first ++ rest) = tally c first + tally c rest := by
  simp [tally]

end QuotaWatch
