/-
# The agent

An agent runs a monitor on a clock: it serves the timers of the loop, hands
snapshots to the built-in queue if it has one, tells alerts to the log if it is
asked to, and keeps the latest snapshot that came out of the queue.

Key definitions: `Agent`, `Agent.ofMonitor`, `Agent.pass`, `Agent.close`,
`Agent.takeReceiver`, `Agent.receive`, `Agent.forward`, `Agent.isHealthy`.
Key theorems: `Agent.close_close`.
-/
import QuotaWatch.Agent.Schedule
import QuotaWatch.Monitor.Build
import QuotaWatch.Monitor.Lifecycle
import QuotaWatch.Queue

namespace QuotaWatch

open Time

/-- Where alerts go. -/
inductive AlertSink where
  | nowhere
  /-- To whoever holds the other end. -/
  | handed
  /-- To the log. -/
  | logged
deriving Repr, DecidableEq

/-- Who has the receiving end of the built-in queue. -/
inductive Receiver where
  /-- The agent, as long as nobody has asked for it. -/
  | inside
  /-- Whoever has asked for it. -/
  | held
  /-- The agent's forwarder. -/
  | forwarding
  | gone
deriving Repr, DecidableEq

/-- A snapshot with the time at which it came out of the queue. -/
structure Forwarded where
  snapshot : Snapshot
  time : Nat
deriving Repr

/-- A monitor that runs on a clock. -/
structure Agent where
  monitor : Monitor
  /-- The timers; none once the loop is shut down. -/
  loop : Option Loop
  /-- Whether the loop broke off at its start, and nobody has closed the monitor since. -/
  broken : Bool := false
  /-- What the runtime says of a task that broke off. -/
  crash : String := ""
  /-- Nanoseconds since the agent was built. -/
  elapsed : Nat := 0
  /-- The time of day. -/
  wall : Timestamp
  sink : AlertSink := .nowhere
  /-- The built-in queue, unless snapshots are handed out directly. -/
  queue : Option (Queue Snapshot) := none
  receiver : Receiver := .inside
  latest : Option Forwarded := none

namespace Agent

/-! ### Effects -/

/-- Hand a snapshot on: into the built-in queue if there is one. -/
def deliver (a : Agent) (s : Snapshot) : Agent × List Event :=
  match a.queue with
  | none => (a, [.delivered s])
  | some queue =>
    let (queue, offer) := queue.offer s
    ({ a with queue := some queue }, (offer.snapshotNotice s).map .noted)

/-- Carry out one effect of the monitor. -/
def carryOut (a : Agent) : Event → Agent × List Event
  | .delivered s => a.deliver s
  | .alerted r =>
    (a, [if a.sink = .logged then .noted (.ofAlert a.monitor.nodeId r) else .alerted r])
  | event => (a, [event])

/-- Carry out effects in order. -/
def carryOutAll (a : Agent) : List Event → Agent × List Event
  | [] => (a, [])
  | event :: events =>
    let (a, first) := a.carryOut event
    let (a, rest) := carryOutAll a events
    (a, first ++ rest)

/-! ### The loop -/

/-- Send a snapshot of the present readings. -/
def send (a : Agent) : Agent × List Event := a.carryOutAll (a.monitor.sendEvents a.wall)

/-- Poll every entity once. -/
def poll (a : Agent) (given : Answers) : Agent × List Event :=
  let (monitor, events) := a.monitor.poll given a.wall
  { a with monitor }.carryOutAll events

/-- Do one job of the loop. -/
def perform (a : Agent) (given : Answers) : Job → Agent × List Event
  | .send => a.send
  | .poll =>
    let (a, events) := a.poll given
    if a.monitor.settings.isCombined then
      let (a, more) := a.send
      (a, events ++ more)
    else (a, events)

/-- Do jobs in order. -/
def performAll (a : Agent) (given : Answers) : List Job → Agent × List Event
  | [] => (a, [])
  | job :: jobs =>
    let (a, first) := a.perform given job
    let (a, rest) := performAll a given jobs
    (a, first ++ rest)

/-- Do all jobs that are due. -/
def serveTimers (a : Agent) (given : Answers) : Agent × List Event :=
  match a.loop with
  | none => (a, [])
  | some loop =>
    let (jobs, loop) := loop.due a.elapsed
    { a with loop := some loop }.performAll given jobs

/-- Take what waits in the queue as the latest snapshot, if the forwarder runs. -/
def serveForwarder (a : Agent) : Agent × List Event :=
  match a.receiver, a.queue with
  | .forwarding, some queue =>
    let (queue, snapshots) := queue.drain
    ({ a with
        queue := some queue
        latest := (snapshots.getLast?.map fun s => ⟨s, a.elapsed⟩).or a.latest },
      snapshots.map fun s => .noted (.snapshotForwarded s.instances.length s.timestamp))
  | _, _ => (a, [])

/-- Let time pass to a new time of day, and do what is due then. -/
def pass (a : Agent) (span : Span) (wall : Timestamp) (given : Answers) : Agent × List Event :=
  let (a, first) := { a with elapsed := a.elapsed + span.nanos, wall }.serveTimers given
  let (a, rest) := a.serveForwarder
  (a, first ++ rest)

/-- Let milliseconds pass. -/
def advance (a : Agent) (ms : Nat) (wall : Timestamp) (given : Answers) : Agent × List Event :=
  a.pass ⟨ms * 1000000⟩ wall given

/-- Shut the loop down. A loop that is shut down already stays so. -/
def close (a : Agent) : Agent × List Event :=
  let notes := [.noted (.closed a.monitor.nodeId "closed"), .noted (.stopped a.monitor.nodeId)]
  match a.loop with
  | none =>
    if a.broken then ({ a with broken := false }, .noted (.loopBroken a.crash) :: notes)
    else (a, [])
  | some _ => ({ a with loop := none, broken := false }, .noted .loopStopped :: notes)

/-! ### The receiving end of the queue -/

/-- Ask for the receiving end; whether it was there to be had. -/
def takeReceiver (a : Agent) : Agent × Bool :=
  if a.queue.isSome && a.receiver == .inside then ({ a with receiver := .held }, true)
  else (a, false)

/-- Receive a snapshot, by whoever holds the receiving end. -/
def receive (a : Agent) : Agent × Option (Received Snapshot) :=
  match a.receiver, a.queue with
  | .held, some queue =>
    let (queue, received) := queue.take
    ({ a with queue := some queue }, some received)
  | _, _ => (a, none)

/-- Give the receiving end up, if somebody holds it. -/
def dropReceiver (a : Agent) : Agent :=
  if a.receiver == .held then
    { a with receiver := .gone, queue := a.queue.map (·.dropReceiver) }
  else a

/-- Start the forwarder on the receiving end that is held; whether there was one. -/
def forward (a : Agent) : Agent × Bool × List Event :=
  if a.receiver == .held then
    let (a, events) := { a with receiver := .forwarding }.serveForwarder
    (a, true, events)
  else (a, false, [])

/-! ### Health -/

/-- The number of send periods after which a snapshot is stale. -/
def healthyPeriods : Nat := 3

/-- Whether the latest snapshot is fresh. -/
def isHealthy (a : Agent) : Bool :=
  a.latest.any fun f =>
    a.elapsed - f.time ≤ healthyPeriods * a.monitor.settings.sendEvery.nanos

/-! ### Building -/

/-- Carry out a start or a stop of an instance. -/
def adopt (a : Agent) (o : Monitor.Outcome) : Agent × List Event × Except Fault Unit :=
  ({ a with monitor := o.monitor }, o.events, o.result)

/-- An agent over a monitor that has just been built. -/
def ofMonitor (monitor : Monitor) (wall : Timestamp) (sink : AlertSink)
    (queue : Option (Queue Snapshot)) : Agent :=
  let loop := Loop.start? 0 monitor.settings
  { monitor, wall, sink, queue, loop, broken := loop.isNone }

/-- The notice of the loop that it runs. -/
def loopNotice (s : Settings) : Event := .noted (.loopStarted s.pollPeriod.millis s.sendEvery.millis)

/-- A second shutdown does nothing. -/
theorem close_close (a : Agent) : a.close.1.close = (a.close.1, []) := by
  unfold close
  cases h : a.loop with
  | none => cases hbroken : a.broken <;> simp [h, hbroken]
  | some loop => simp

end Agent

end QuotaWatch
