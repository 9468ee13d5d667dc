/-
# Tasks that share a monitor

Any number of tasks call a monitor at any time. A call waits for the lock of the
monitor, does its work under it and returns. A start under an id that names no
directory returns before it waits. In between the monitor polls and sends. What
tasks and ticks do to a monitor is therefore what one run does to it: that of the
operations in the order in which they got the lock (`Crowd.monitor_after`). Every
record has its origin in this run. A call that returns a fault or finds the registry
as it asks for it leaves the monitor as it is (`Crowd.settles_of_call`).

Key definitions: `Call`, `Reply`, `Reply.Settles`, `Move`, `Crowd`, `Crowd.step`,
`Crowd.bodies`.
Key theorems: `Crowd.monitor_after`, `Crowd.reply_cases`, `Crowd.settles_of_call`,
`Crowd.registry_of_moves`.
-/
import Mathlib.Logic.Function.Basic
import QuotaWatch.Proofs.Monitor.Origin

namespace QuotaWatch

open Time

/-! ### Tasks -/

/-- What a task asks of a monitor. -/
inductive Call where
  | start (id : String) (params : InstanceParams)
  | stop (id : String)
  | query

namespace Call

/-- What a call does under the lock. -/
def operation : Call → Operation
  | .start id params => .start id params
  | .stop id => .stop id
  | .query => .query

/-- The fault of a call that is refused before it waits for the lock. -/
def refusal? : Call → Option Fault
  | .start id _ => if isInstanceId id then none else some (.invalidInstanceId id)
  | _ => none

/-- What a call returns that got the lock. -/
def result (m : Monitor) : Call → Except Fault Unit
  | .start id params => (m.start id params).result
  | .stop id => (m.stop id).result
  | .query => .ok ()

end Call

/-- What a task gets from a call. -/
structure Reply where
  task : ℕ
  call : Call
  result : Except Fault Unit

/-- What a reply says about the monitor before and behind the call. -/
structure Reply.Settles (reply : Reply) (m m' : Monitor) : Prop where
  /-- A call that fails is a start, and changes nothing. -/
  failed : ∀ fault, reply.result = .error fault → m' = m ∧ ∃ id params,
    reply.call = .start id params ∧ (fault = .invalidInstanceId id ∨ fault.IsOfRule)
  /-- A start of a registered instance succeeds, and changes nothing. -/
  known : ∀ id params, reply.call = .start id params → id ∈ m.instances.ids →
    reply.result = .ok () ∧ m' = m
  started : ∀ id params, reply.call = .start id params → reply.result = .ok () →
    id ∈ m'.instances.ids
  /-- A stop of an id that is not registered changes nothing. -/
  unknown : ∀ id, reply.call = .stop id → id ∉ m.instances.ids → m' = m
  stopped : ∀ id, reply.call = .stop id → id ∉ m'.instances.ids

/-- A monitor with the tasks that wait for its lock. -/
structure Crowd where
  monitor : Monitor
  /-- The call of each task that waits. -/
  waiting : ℕ → Option Call := fun _ => none

/-- What tasks and ticks do next. -/
inductive Move where
  /-- A task that does not wait calls. -/
  | call (task : ℕ) (call : Call)
  /-- A task that waits gets the lock, and its call returns. -/
  | enter (task : ℕ)
  /-- A task that waits gives its call up. -/
  | leave (task : ℕ)
  | poll (answers : Answers) (now : Timestamp)
  | send (now : Timestamp)

namespace Crowd

/-- What is done under the lock at a move. -/
def body? (c : Crowd) : Move → Option Operation
  | .enter task => (c.waiting task).map (·.operation)
  | .poll a now => some (.poll a now)
  | .send now => some (.send now)
  | _ => none

/-- One move: the crowd behind it, and the reply to the call that returns at it. -/
def step (c : Crowd) : Move → Crowd × Option Reply
  | .call task call =>
    match c.waiting task, call.refusal? with
    | some _, _ => (c, none)
    | none, some fault => (c, some ⟨task, call, .error fault⟩)
    | none, none => ({ c with waiting := Function.update c.waiting task (some call) }, none)
  | .enter task =>
    match c.waiting task with
    | none => (c, none)
    | some call =>
      ({ monitor := (c.monitor.step call.operation).1
         waiting := Function.update c.waiting task none },
        some ⟨task, call, call.result c.monitor⟩)
  | .leave task => ({ c with waiting := Function.update c.waiting task none }, none)
  | .poll a now => ({ c with monitor := (c.monitor.step (.poll a now)).1 }, none)
  | .send now => ({ c with monitor := (c.monitor.step (.send now)).1 }, none)

/-- The crowd behind moves. -/
def after (c : Crowd) : List Move → Crowd
  | [] => c
  | move :: moves => (c.step move).1.after moves

/-- What is done under the lock at moves, in the order in which the lock was got. -/
def bodies (c : Crowd) : List Move → List Operation
  | [] => []
  | move :: moves => (c.body? move).toList ++ (c.step move).1.bodies moves

/-- A move does to the monitor what it does under the lock. -/
theorem monitor_step (c : Crowd) (move : Move) :
    (c.step move).1.monitor = c.monitor.after (c.body? move).toList := by
  cases move with
  | call task call =>
    simp only [step, body?]
    split <;> rfl
  | enter task =>
    simp only [step, body?]
    cases c.waiting task <;> rfl
  | _ => rfl

/-- **Moves do to the monitor what one run does**, that of the operations in the order in
which they got the lock. -/
theorem monitor_after : ∀ (c : Crowd) (moves : List Move),
    (c.after moves).monitor = c.monitor.after (c.bodies moves)
  | _, [] => rfl
  | c, move :: moves => by
    rw [after, monitor_after (c.step move).1 moves, monitor_step, bodies, Monitor.after_append]

/-- A call that returns was refused and did nothing, or it got the lock. -/
theorem reply_cases {c : Crowd} {move : Move} {reply : Reply}
    (h : (c.step move).2 = some reply) :
    (∃ fault, reply.call.refusal? = some fault ∧ reply.result = .error fault ∧
      (c.step move).1.monitor = c.monitor) ∨
    (reply.result = reply.call.result c.monitor ∧
      (c.step move).1.monitor = (c.monitor.step reply.call.operation).1) := by
  cases move with
  | call task call =>
    simp only [step] at h ⊢
    split at h
    · cases h
    · rename_i fault hwaiting hrefusal
      cases h
      exact Or.inl ⟨fault, hrefusal, rfl, rfl⟩
    · cases h
  | enter task =>
    simp only [step] at h ⊢
    split at h
    · cases h
    · cases h
      exact Or.inr ⟨rfl, rfl⟩
  | _ => cases h

/-- A call that is refused is a start under an id that names no directory. -/
theorem settles_of_refusal {m : Monitor} {call : Call} {fault : Fault} (task : ℕ)
    (hids : ∀ id ∈ m.instances.ids, isInstanceId id = true)
    (h : call.refusal? = some fault) : Reply.Settles ⟨task, call, .error fault⟩ m m := by
  cases call with
  | start id params =>
    rw [Call.refusal?, ite_eq_iff] at h
    rcases h with ⟨-, h⟩ | ⟨hid, h⟩
    · cases h
    · cases h
      constructor
      · rintro fault ⟨⟩
        exact ⟨rfl, id, params, rfl, Or.inl rfl⟩
      · rintro _ _ ⟨⟩ hlive
        exact absurd (hids id hlive) hid
      · rintro _ _ - ⟨⟩
      · rintro _ ⟨⟩
      · rintro _ ⟨⟩
  | _ => cases h

/-- A call that gets the lock does under it what its reply says. -/
theorem settles_of_call {m : Monitor} (task : ℕ) (call : Call)
    (hids : ∀ id ∈ m.instances.ids, isInstanceId id = true) :
    Reply.Settles ⟨task, call, call.result m⟩ m (m.step call.operation).1 := by
  cases call with
  | start id params =>
    constructor
    · intro fault hfault
      obtain ⟨hsame, hkind⟩ := Monitor.start_error hfault
      exact ⟨hsame, id, params, rfl, hkind⟩
    · rintro _ _ ⟨⟩ hlive
      exact Monitor.start_of_registered params (hids id hlive) (Registry.mem_ids.mp hlive)
    · rintro _ _ ⟨⟩ hok
      rw [Registry.mem_ids, Call.operation, Monitor.step, Monitor.get?_start]
      cases hlive : m.instances.get? id with
      | some i => rfl
      | none =>
        rw [Option.none_or]
        exact (Monitor.result_start_of_absent hlive params).mp hok
    · rintro _ ⟨⟩
    · rintro _ ⟨⟩
  | stop id =>
    constructor
    · intro fault hfault
      rw [Call.result, Monitor.result_stop] at hfault
      cases hfault
    · rintro _ _ ⟨⟩
    · rintro _ _ ⟨⟩
    · rintro _ ⟨⟩ hlive
      rw [Registry.mem_ids, Bool.not_eq_true] at hlive
      exact Monitor.stop_unknown hlive
    · rintro _ ⟨⟩
      rw [Registry.mem_ids, Call.operation, Monitor.step, (m.stop_monitor id).2.2, if_pos rfl]
      exact Bool.false_ne_true
  | query =>
    constructor
    · rintro fault ⟨⟩
    · rintro _ _ ⟨⟩
    · rintro _ _ ⟨⟩
    · rintro _ ⟨⟩
    · rintro _ ⟨⟩

/-- **What tasks do to the registry.** However calls of any number of tasks and ticks follow
on each other, the ids that are registered are those whose last change was a start.
Every record is that of one start: of the parameters of this start, of the processors
that its rules imply and of the window of the settings, moved by the polls since then and
by nothing else. A start of a registered instance succeeds, and like a start that fails
and a stop of an id that is not registered it changes nothing. Behind any other start the
instance is registered, and behind a stop it is not. -/
theorem registry_of_moves {b : Blueprint} {a₀ : Answers} {m : Monitor}
    (hm : (Monitor.build b a₀).result = .ok m) (moves : List Move) :
    let c := Crowd.after { monitor := m } moves
    let ops := Crowd.bodies { monitor := m } moves
    c.monitor = m.after ops ∧
      (∀ id, id ∈ c.monitor.instances.ids ↔
        ∃ params, (Monitor.changes id m ops).getLast? = some (.start id params)) ∧
      (∀ (id : String) (i : Instance), c.monitor.instances.get? id = some i →
        ∃ before params behind processors, ops = before ++ .start id params :: behind ∧
          (Monitor.changes id m ops).getLast? = some (.start id params) ∧
          Monitor.changes id (m.after (before ++ [.start id params])) behind = [] ∧
          (m.after before).instances.get? id = none ∧
          implied id params.rules m.capacity (params.partitions.map (·.name)) = .ok processors ∧
          i = (Instance.fresh params processors m.settings.window).replay m.watchesTraffic id
            behind ∧
          i.IsFrom params processors m.settings.window) ∧
      ∀ (move : Move) (reply : Reply), (c.step move).2 = some reply →
        reply.Settles c.monitor (c.step move).1.monitor := by
  intro c ops
  have hrun : c.monitor = m.after ops := monitor_after _ moves
  have absent : ∀ id, m.instances.get? id = none := Monitor.get?_of_build hm
  refine ⟨hrun, fun id => ?_, fun id i hi => ?_, fun move reply hreply => ?_⟩
  · -- what is registered
    rw [hrun]
    exact Monitor.mem_ids_after (absent id) ops
  · -- where it comes from
    rw [hrun] at hi
    exact Monitor.record_of_start (absent id) hi
  · -- what calls do
    have hids : ∀ id ∈ c.monitor.instances.ids, isInstanceId id = true := by
      intro id hid
      rw [hrun] at hid
      exact Monitor.isInstanceId_of_mem_ids (absent id) hid
    obtain ⟨task, call, result⟩ := reply
    rcases reply_cases hreply with ⟨fault, hrefusal, hresult, hmonitor⟩ | ⟨hresult, hmonitor⟩
    · dsimp only at hrefusal hresult
      rw [hmonitor, hresult]
      exact settles_of_refusal task hids hrefusal
    · dsimp only at hresult hmonitor
      rw [hmonitor, hresult]
      exact settles_of_call task call hids

/-- Two tasks start an instance under one id with different rules, and a third one tries to
start one under an id that names no directory. -/
def race : List Move :=
  [.call 0 (.start "a" Monitor.worker), .call 1 (.start "a" Site.reworked),
    .call 2 (.start "../c" Monitor.worker), .enter 1,
    .poll (Monitor.underLoad 95 none).answers ⟨1000, false⟩]

/-- The task that gets the lock first registers the instance. The other one gets the lock
behind the poll, and its start changes nothing. -/
theorem registry_of_moves_race :
    let c := Crowd.after { monitor := Monitor.smallMonitor } race
    (∃ i processors, c.monitor.instances.get? "a" = some i ∧
        i.IsFrom Site.reworked processors (some (.ofMillis 60000))) ∧
      ∃ reply, (c.step (.enter 0)).2 = some reply ∧ reply.result = .ok () ∧
        (c.step (.enter 0)).1.monitor = c.monitor := by
  intro c
  obtain ⟨-, hids, hfrom, hreply⟩ := registry_of_moves Monitor.build_smallNode race
  have hlast : (Monitor.changes "a" Monitor.smallMonitor
      (Crowd.bodies { monitor := Monitor.smallMonitor } race)).getLast? =
        some (.start "a" Site.reworked) := rfl
  have ha : "a" ∈ c.monitor.instances.ids := (hids "a").mpr ⟨_, hlast⟩
  constructor
  · obtain ⟨i, hi⟩ := Option.isSome_iff_exists.mp (Registry.mem_ids.mp ha)
    obtain ⟨-, params, -, processors, -, hlast', -, -, -, -, hisfrom⟩ := hfrom "a" i hi
    cases hlast.symm.trans hlast'
    exact ⟨i, processors, hi, hisfrom⟩
  · have hsome : (c.step (.enter 0)).2 = some ⟨0, .start "a" Monitor.worker, _⟩ := rfl
    exact ⟨_, hsome, (hreply _ _ hsome).known "a" Monitor.worker rfl ha⟩

end Crowd

end QuotaWatch
