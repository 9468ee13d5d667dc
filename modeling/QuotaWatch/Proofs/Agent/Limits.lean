/-
# Numbers that stay in range

The settings of a monitor hold lengths of time and the size of the queue of snapshots. To
be valid they must not be zero; nothing is asked of their upper ends, where each of them
meets a limit of the machine. The size of the queue can pass its limit: settings are valid
for which the queue cannot be made (`Monitor.not_queue_of_valid`). No other number passes
one. The time after which a snapshot is stale can be told, and where 64 bits do not hold a
retention, or no time lies a retention back, a push drops what it should all the same. What
an entity remembers are times of polls (`Entity.KeepsTo`), so the calendar covers them and
64 bits hold the time between any two. With the sums in 128 bits (`Window.average?_eq`)
no push, check or average of a run leaves its range (`Monitor.inRange_of_run`).

Key definitions: `Span.times?`, `Timestamp.hasElapsed?`, `Processor.check?`,
`Entity.KeepsTo`, `Entity.InRange`, `Settings.InRange`.
Key theorems: `Processor.check?_eq`, `Entity.KeepsTo.poll`, `Monitor.keepsTo_of_run`,
`Settings.inRange_of_valid`, `Monitor.inRange_of_run`, `Monitor.not_queue_of_valid`.
-/
import QuotaWatch.Proofs.Agent.Runner
import QuotaWatch.Proofs.Monitor.Built
import QuotaWatch.Proofs.Window.Retention
import QuotaWatch.Proofs.Window.Sums

namespace QuotaWatch

open Time

/-! ### Lengths of time -/

namespace Time

/-- A length of time taken a number of times, where 64 bits hold its seconds. -/
def Span.times? (s : Span) (n : ℕ) : Option Span :=
  if n * s.nanos / 1000000000 < 2 ^ 64 then some ⟨n * s.nanos⟩ else none

/-- As many seconds as 64 bits can count are a thousand times as many milliseconds. -/
theorem Span.times?_ofMillis {n : ℕ} (h : n ≤ 1000) (m : Millis) :
    (Span.ofMillis m).times? n = some ⟨n * (Span.ofMillis m).nanos⟩ := by
  have hnanos : n * (Span.ofMillis m).nanos ≤ 1000 * (m.toNat * 1000000) :=
    Nat.mul_le_mul_right _ h
  have := m.toNat_lt
  refine if_pos ?_
  rw [Nat.div_lt_iff_lt_mul (by decide)]
  omega

namespace Timestamp

/-- The nanoseconds from one point in time to another, where 64 bits hold the milliseconds. -/
def between? (since now : Timestamp) : Option ℤ :=
  let nanos := since.between now
  if nanos.natAbs ≤ longestSpan.nanos then some nanos else none

/-- Whether a length of time has passed, where the time that has passed can be told; none
has where the clock went back. -/
def hasElapsed? (since now : Timestamp) (timeout : Span) : Option Bool :=
  (between? since now).map fun nanos => timeout.nanos ≤ nanos.toNat

variable {since now : Timestamp}

/-- Leap seconds add no more than two seconds to what the counts tell. -/
theorem natAbs_between_le (since now : Timestamp) :
    (since.between now).natAbs ≤ (now.nanos - since.nanos).natAbs + 2000000000 := by
  have := fraction_bounds since
  have := fraction_bounds now
  simp only [between, second]
  split_ifs <;> omega

/-- The calendar is shorter than the longest length of time. -/
theorem hasElapsed?_eq (hsince : since.Covered) (hnow : now.Covered) (timeout : Span) :
    since.hasElapsed? now timeout = some (since.hasElapsed now timeout) := by
  have hlength : afterLatest.nanos - earliest.nanos + 2000000000 ≤ longestSpan.nanos := by
    decide +kernel
  obtain ⟨hearly, hlate⟩ := hsince
  obtain ⟨hearly', hlate'⟩ := hnow
  have hclose := natAbs_between_le since now
  have hfits : (since.between now).natAbs ≤ longestSpan.nanos := by omega
  rw [hasElapsed?, between?, if_pos hfits]
  rfl

/-- A point in time that lies back from one of the calendar is one of the calendar. -/
theorem covered_of_back? {t cutoff : Timestamp} {span : Span} (ht : t.Covered)
    (h : t.back? span = some cutoff) : span.nanos ≤ longestSpan.nanos ∧ cutoff.Covered := by
  obtain ⟨⟨hspan, hearly⟩, rfl⟩ := back?_eq_some h
  have hwhole : afterLatest.nanos % 1000000000 = 0 := by decide +kernel
  have hsecond : (t.back span).second ≤ t.second := second_le_of_le (back_le t span)
  have hlate := ht.2
  refine ⟨hspan, hearly, ?_⟩
  rw [second, second] at hsecond
  omega

end Timestamp

end Time

/-! ### Checks -/

namespace Detector

/-- A check of a detector that is not raised. -/
def checkNormal? (t : Thresholds) (crossedAt : Option Timestamp) (now : Timestamp)
    (value : Figure) : Option (State × Option Status) :=
  if value < t.high then some (.normal none, none)
  else do
    let since := crossedAt.getD now
    let passed ← since.hasElapsed? now t.timeout
    some (if passed then (.raised now none, some .raise) else (.normal (some since), none))

/-- A check of a raised detector. -/
def checkRaised? (t : Thresholds) (lastNotified : Timestamp) (belowSince : Option Timestamp)
    (now : Timestamp) (value : Figure) : Option (State × Option Status) := do
  let below := if t.low ≤ value then none else some (belowSince.getD now)
  let fallen ← below.elim (some false) (·.hasElapsed? now t.timeout)
  if fallen then some (.normal none, some .fall)
  else do
    let passed ← lastNotified.hasElapsed? now t.timeout
    some
      (if passed then (.raised now below, some .continues) else (.raised lastNotified below, none))

/-- The next state and the stage reported. -/
def step? (t : Thresholds) (s : State) (now : Timestamp) (value : Figure) :
    Option (State × Option Status) :=
  match s with
  | .normal crossedAt => checkNormal? t crossedAt now value
  | .raised lastNotified belowSince => checkRaised? t lastNotified belowSince now value

/-- Take in one value, where every time that has passed can be told. -/
def check? (d : Detector) (now : Timestamp) (value : Figure) : Option (Detector × Option Alarm) :=
  (step? d.thresholds d.state now value).map fun (state, status) =>
    ({ d with state }, status.map (⟨now, value, ·⟩))

/-- The times that a detector remembers. -/
def State.times : State → List Timestamp
  | .normal crossedAt => crossedAt.toList
  | .raised lastNotified belowSince => lastNotified :: belowSince.toList

section Step

variable {t : Thresholds} {s : State} {now : Timestamp}

/-- A time that is remembered, or else the present one, is covered if all of these are. -/
theorem covered_getD {time? : Option Timestamp} (hnow : now.Covered)
    (h : ∀ time ∈ time?.toList, time.Covered) : (time?.getD now).Covered := by
  cases time? with
  | none => exact hnow
  | some time => exact h time (by simp)

theorem step?_eq (hnow : now.Covered) (h : ∀ time ∈ s.times, time.Covered) (value : Figure) :
    step? t s now value = some (step t s now value) := by
  cases s with
  | normal crossedAt =>
    have hsince := Timestamp.hasElapsed?_eq (covered_getD hnow h) hnow t.timeout
    simp only [step?, step, checkNormal?, checkNormal]
    split
    · rfl
    · rw [hsince]
      rfl
  | raised lastNotified belowSince =>
    obtain ⟨hnotified, hbelow⟩ := List.forall_mem_cons.mp h
    have hfall := Timestamp.hasElapsed?_eq (covered_getD hnow hbelow) hnow t.timeout
    have hreport := Timestamp.hasElapsed?_eq hnotified hnow t.timeout
    simp only [step?, step, checkRaised?, checkRaised]
    split
    · simp [hreport]
    · simp only [Option.elim_some, hfall, hreport, Option.bind_eq_bind, Option.bind_some,
        Option.any_some]
      split <;> rfl

/-- What a detector remembers behind a step it remembered before, or is the present time. -/
theorem mem_times_step {value : Figure} {time : Timestamp}
    (h : time ∈ (step t s now value).1.times) : time ∈ s.times ∨ time = now := by
  have hgetD : ∀ {time? : Option Timestamp}, time = time?.getD now →
      time ∈ time?.toList ∨ time = now := by
    intro time? he
    cases time? with
    | none => exact Or.inr he
    | some since => exact Or.inl (by simp [he])
  cases s with
  | normal crossedAt =>
    rcases checkNormal_cases t crossedAt now value with ⟨-, he⟩ | ⟨-, -, he⟩ | ⟨-, -, he⟩
    · simp [step, he, State.times] at h
    · exact Or.inr (by simpa [step, he, State.times] using h)
    · exact hgetD (by simpa [step, he, State.times] using h)
  | raised lastNotified belowSince =>
    rcases checkRaised_cases t lastNotified belowSince now value with
      ⟨-, -, he⟩ | ⟨below, hbelow, he⟩
    · simp [step, he, State.times] at h
    · -- the time of the last report stays or is the present one, whatever runs below
      have hruns : time ∈ below.toList → time ∈ belowSince.toList ∨ time = now := by
        rcases hbelow with ⟨-, rfl⟩ | ⟨-, -, rfl⟩
        · exact fun hmem => absurd hmem List.not_mem_nil
        · exact fun hmem => hgetD (List.mem_singleton.mp hmem)
      have hsplit : (time = now ∨ time = lastNotified) ∨ time ∈ below.toList := by
        simp only [step, he] at h
        split at h
        · exact (List.mem_cons.mp h).imp Or.inl id
        · exact (List.mem_cons.mp h).imp Or.inr id
      rcases hsplit with (hnow | hnotified) | hmem
      · exact Or.inr hnow
      · exact Or.inl (List.mem_cons.mpr (Or.inl hnotified))
      · exact (hruns hmem).imp (List.mem_cons_of_mem _) id

end Step

end Detector

namespace Processor

/-- Take in one reading, where every time that has passed can be told. -/
def check? (p : Processor) (r : Reading) : Option (Processor × Option Alert) :=
  match p.parameter.read r with
  | none => some (p, none)
  | some value =>
    (p.detector.check? r.timestamp value).map fun (detector, alarm) =>
      ({ p with detector },
        alarm.map fun a => ⟨a.timestamp, p.parameter.name, a.value, a.status⟩)

variable {p : Processor} {r : Reading}

theorem check?_eq (hr : r.timestamp.Covered) (h : ∀ t ∈ p.detector.state.times, t.Covered) :
    p.check? r = some (p.check r) := by
  unfold check? check
  cases p.parameter.read r with
  | none => rfl
  | some value =>
    simp only [Detector.check?, Detector.step?_eq hr h, Option.map_some]
    rfl

theorem mem_times_check {t : Timestamp} (h : t ∈ (p.check r).1.detector.state.times) :
    t ∈ p.detector.state.times ∨ t = r.timestamp := by
  unfold check at h
  split at h
  · exact Or.inl h
  · exact Detector.mem_times_step h

end Processor

/-! ### What an entity remembers -/

/-- Every time that an entity remembers has a property. -/
structure Entity.KeepsTo (P : Timestamp → Prop) (e : Entity) : Prop where
  window : ∀ w, e.window = some w → ∀ r ∈ w.readings, P r.timestamp
  processors : ∀ p ∈ e.processors, ∀ t ∈ p.detector.state.times, P t

namespace Entity

variable {P : Timestamp → Prop} {e : Entity}

theorem keepsTo_fresh (partitions : List String) {processors : List Processor}
    (retention : Option Span) (h : ∀ p ∈ processors, p.IsFresh) :
    (Entity.fresh partitions processors retention).KeepsTo P where
  window := by
    intro w hw r hr
    obtain ⟨span, -, rfl⟩ := Option.map_eq_some_iff.mp hw
    cases hr
  processors := by
    intro p hp t ht
    rw [(h p hp : p.detector = _)] at ht
    cases ht

/-- **A poll adds no time but its own.** -/
theorem KeepsTo.poll (h : e.KeepsTo P) (f : Fetches) {now : Timestamp} (hnow : P now) :
    (e.poll f now).KeepsTo P where
  window := by
    intro w hw r hr
    rcases mem_window_poll hw hr with rfl | ⟨before, hbefore, hr⟩
    · exact hnow
    · exact h.window before hbefore r hr
  processors := by
    intro p hp t ht
    obtain ⟨before, hbefore, rfl⟩ := List.mem_map.mp hp
    rcases Processor.mem_times_check ht with ht | rfl
    · exact h.processors before hbefore t ht
    · exact hnow

end Entity

namespace Monitor

/-- **An entity remembers no times but those of the polls of the run.** -/
theorem keepsTo_of_run {P : Timestamp → Prop} {b : Blueprint} {a₀ : Answers} {m : Monitor}
    (hm : (build b a₀).result = .ok m) {ops : List Operation}
    (h : ∀ a now, Operation.poll a now ∈ ops → P now) {entity : EntityId} {e : Entity}
    (he : (m.after ops).entity? entity = some e) : e.KeepsTo P :=
  entity_of_run hm (fun partitions _ retention hfresh =>
    Entity.keepsTo_fresh partitions retention hfresh)
    (fun _ f a now hmem hkeeps => hkeeps.poll f (h a now hmem)) he

end Monitor

/-! ### Entities in range -/

/-- Whatever an entity takes in next, and whenever it is asked for its average, every number
on the way stays within its limit. -/
structure Entity.InRange (e : Entity) : Prop where
  /-- A cutoff that is computed is a point in time, and where none is a push drops the
  leading readings that are older than the retention all the same. -/
  push : ∀ w, e.window = some w → ∀ r : Reading, r.timestamp.Covered →
    (∀ cutoff, r.timestamp.back? w.retention = some cutoff →
      w.retention.nanos ≤ Timestamp.longestSpan.nanos ∧ cutoff.Covered) ∧
    (w.push r).readings =
      (w.readings ++ [r]).dropWhile (Window.isStale w.retention r.timestamp)
  check : ∀ p ∈ e.processors, ∀ r : Reading, r.timestamp.Covered → p.check? r = some (p.check r)
  /-- A memory with addresses of 64 bits holds no larger window. -/
  average : ∀ w, e.window = some w → w.held ≤ 2 ^ 64 →
    ∀ name, w.average? name = some (w.average name)

theorem Entity.KeepsTo.inRange {e : Entity} (h : e.KeepsTo Timestamp.Covered) : e.InRange where
  push := fun w hw _ hr =>
    ⟨fun _ hback => Timestamp.covered_of_back? hr hback, Window.readings_push hr (h.window w hw)⟩
  check := fun p hp _ hr => Processor.check?_eq hr (h.processors p hp)
  average := fun _ _ hheld name => Window.average?_eq hheld name

/-! ### Settings in range -/

/-- Every number of settings stays within its limit where a monitor starts to run on them,
that of the queue if it does. -/
structure Settings.InRange (s : Settings) : Prop where
  /-- The queue of snapshots can be made if its size is within the limit of queues, and
  only then. -/
  queue : (∃ q : Queue Snapshot, Queue.ofBuffer? s.buffer = some q) ↔
    s.buffer ≤ Queue.largestBuffer
  limit : ∀ q : Queue Snapshot, Queue.ofBuffer? s.buffer = some q →
    q.limit = some s.buffer.toNat
  /-- An instant can hold the first deadlines of a loop. -/
  timers : ∀ poll : Millis, s.pollPeriod = .ofMillis poll → ∀ now < Timer.clockEnd / 2,
    ∃ loop, Loop.start? now s = some loop
  /-- The time after which a snapshot is stale can be told. -/
  health : ∃ window, s.sendEvery.times? Agent.healthyPeriods = some window ∧
    ∀ agent : Agent, agent.monitor.settings = s →
      agent.isHealthy = agent.latest.any fun f => agent.elapsed - f.time ≤ window.nanos

theorem Settings.buffer_pos {s : Settings} (h : s.validate = .ok ()) : 1 ≤ s.buffer.toNat := by
  have hflaw := flaw_of_valid h
  by_contra hzero
  have hbuffer : s.buffer = 0 := UInt64.toNat_inj.mp (by
    show s.buffer.toNat = 0
    omega)
  simp only [flaw, hbuffer, beq_self_eq_true, if_true] at hflaw
  split at hflaw
  · cases hflaw
  · split at hflaw
    · cases hflaw
    · split at hflaw <;> cases hflaw

theorem Settings.inRange_of_valid {s : Settings} {every : Millis} (h : s.validate = .ok ())
    (hevery : s.sendEvery = .ofMillis every) : s.InRange where
  queue := by
    unfold Queue.ofBuffer?
    split
    · rename_i hle
      exact iff_of_true ⟨_, rfl⟩ hle
    · rename_i hgt
      exact iff_of_false (by simp) hgt
  limit := by
    intro q hq
    unfold Queue.ofBuffer? at hq
    split at hq
    · cases hq
      exact congrArg some (Nat.max_eq_left (buffer_pos h))
    · cases hq
  timers := fun _ hpoll _ hnow =>
    Loop.exists_start h (Settings.reaches_of_millis hpoll hevery hnow)
  health := by
    refine ⟨⟨Agent.healthyPeriods * s.sendEvery.nanos⟩, ?_, fun agent hagent => ?_⟩
    · rw [hevery]
      exact Span.times?_ofMillis (by decide) every
    · rw [Agent.isHealthy, hagent]

/-! ### Runs -/

namespace Monitor

/-- **Valid numbers stay in range**, but for the size of the queue: a monitor can run on
valid settings, the queue of snapshots can be made exactly if its size is within the limit of
queues, and behind every run of a monitor that was built on them no push, check or average
of an entity leaves its range. -/
theorem inRange_of_run {b : Blueprint} {every : Millis} (hvalid : b.settings.validate = .ok ())
    (hevery : b.settings.sendEvery = .ofMillis every) :
    b.settings.InRange ∧
      ∀ a m, (build b a).result = .ok m → m.settings = b.settings ∧
        ∀ ops, (∀ a now, Operation.poll a now ∈ ops → now.Covered) →
          ∀ entity e, (m.after ops).entity? entity = some e → e.InRange := by
  refine ⟨Settings.inRange_of_valid hvalid hevery, fun a m hm => ⟨?_, ?_⟩⟩
  · obtain ⟨info, capacity, rules, processors, -, -, -, -, -, rfl⟩ := build_ok hm
    rfl
  · intro ops hclock entity e he
    exact (keepsTo_of_run hm hclock he).inRange

/-- The small node with the largest numbers that there are for the times, on a queue. -/
def patientNode (buffer : UInt64) : Blueprint :=
  let longest := Span.ofMillis 18446744073709551615
  { smallNode with
    settings := { smallNode.settings with
      pollPeriod := longest, sendPeriod := some longest, window := some longest, buffer } }

/-- The monitor of the patient node. -/
def patientMonitor (buffer : UInt64) : Monitor :=
  { smallMonitor with
    settings := (patientNode buffer).settings
    system := { smallMonitor.system with
      window := some { retention := .ofMillis 18446744073709551615 } } }

theorem inRange_of_run_patientNode :
    let b := patientNode Queue.largestBuffer
    b.settings.validate = .ok () ∧ b.settings.sendEvery = .ofMillis 18446744073709551615 ∧
      (∃ q : Queue Snapshot, Queue.ofBuffer? b.settings.buffer = some q) ∧
      (build b (underLoad 10 none).answers).result = .ok (patientMonitor Queue.largestBuffer) ∧
      (∀ a now, Operation.poll a now ∈ twoPolls → now.Covered) ∧
      ((patientMonitor Queue.largestBuffer).after twoPolls).system.InRange := by
  intro b
  have hbuilt :
      (build b (underLoad 10 none).answers).result = .ok (patientMonitor Queue.largestBuffer) := rfl
  have hclock : ∀ a now, Operation.poll a now ∈ twoPolls → now.Covered := by
    intro a now h
    simp only [twoPolls, List.mem_cons, reduceCtorEq, Operation.poll.injEq, List.not_mem_nil,
      false_or, or_false] at h
    rcases h with ⟨-, rfl⟩ | ⟨-, rfl⟩ <;> decide +kernel
  obtain ⟨hsettings, hrun⟩ := inRange_of_run (b := b) rfl rfl
  exact ⟨rfl, rfl, hsettings.queue.mpr (by decide), hbuilt, hclock,
    (hrun _ _ hbuilt).2 twoPolls hclock .node _ rfl⟩

/-- Valid settings can ask for a queue that cannot be made: its size has no upper end. -/
theorem not_queue_of_valid : ¬ ∀ (b : Blueprint) (a : Answers) (m : Monitor),
    b.settings.validate = .ok () → (build b a).result = .ok m →
      ∃ q : Queue Snapshot, Queue.ofBuffer? m.settings.buffer = some q := by
  intro h
  obtain ⟨q, hq⟩ := h (patientNode 2305843009213693952) (underLoad 10 none).answers
    (patientMonitor 2305843009213693952) rfl rfl
  have hnone : (Queue.ofBuffer? 2305843009213693952 : Option (Queue Snapshot)) = none := rfl
  exact absurd (hnone.symm.trans hq) (by simp)

end Monitor

end QuotaWatch
