/-
# The loop as a task of its own

The loop of a monitor runs beside those who call the monitor. It starts when it
first gets to run, chooses at every turn what is ready, and takes its time over
a poll or a send. Where one of its timers cannot start it breaks off
(`Loop.exists_start`). A signal to shut down waits for the loop until its next turn
and goes before every timer. A call that closes the monitor waits for the end of
the loop, if it is the first one, unless it is given up; dropping the monitor sends
the signal and waits for nothing.

An agent is a runner whose loop is served at once: letting time pass is a pass
followed by one turn for each job that is due (`Agent.runner_pass`), and shutting
the loop down is a close that is waited for (`Agent.runner_close`).

Key definitions: `Settings.Reaches`, `Phase`, `Runner`, `Runner.Action`,
`Runner.step`, `Runner.after`, `Runner.bodies`, `Runner.ticks`, `Runner.starts`,
`Agent.runner`.
Key theorems: `Loop.exists_start`, `Runner.after_induction`, `Runner.monitor_after`,
`Runner.loop_after`, `Agent.runner_pass`, `Agent.runner_close`.
-/
import QuotaWatch.Agent.Basic
import QuotaWatch.Proofs.Monitor.Ticks

namespace QuotaWatch

open Time

/-! ### The timers of a loop -/

/-- The timers of a loop are those of the settings. -/
structure Loop.IsFor (l : Loop) (s : Settings) : Prop where
  poll : l.poll.period = s.pollPeriod.nanos
  /-- There is none for snapshots where they go with the polls. -/
  combined : l.send = none ↔ s.isCombined = true
  send : ∀ send, l.send = some send → send.period = s.sendEvery.nanos

theorem Timer.start?_eq_some {now : ℕ} {period : Span} {t : Timer} :
    Timer.start? now period = some t ↔ t.deadline = now + period.nanos ∧
      t.period = period.nanos ∧ now + period.nanos < clockEnd := by
  rw [Timer.start?]
  constructor
  · intro h
    split at h
    · rename_i hperiod
      cases h
      exact ⟨rfl, rfl, hperiod.2⟩
    · cases h
  · rintro ⟨hdeadline, hperiod, hend⟩
    have hpos := t.period_pos
    rw [dif_pos ⟨by omega, hend⟩]
    cases t
    simp only [Option.some.injEq, Timer.mk.injEq]
    exact ⟨hdeadline.symm, hperiod.symm⟩

/-- The timers of a loop that starts. -/
theorem Loop.start?_eq_some {now : ℕ} {s : Settings} {l : Loop} :
    Loop.start? now s = some l ↔ Timer.start? now s.pollPeriod = some l.poll ∧
      if s.isCombined then l.send = none
      else Timer.start? now s.sendEvery = l.send ∧ l.send ≠ none := by
  rw [Loop.start?]
  cases hpoll : Timer.start? now s.pollPeriod with
  | none => simp
  | some poll =>
    cases hcombined : s.isCombined with
    | true =>
      rcases l with ⟨_, _ | _⟩ <;> simp
    | false =>
      cases hsend : Timer.start? now s.sendEvery with
      | none =>
        rcases l with ⟨_, _ | _⟩ <;> simp
      | some send =>
        rcases l with ⟨_, _ | _⟩ <;> simp

theorem Loop.isFor_start {now : ℕ} {s : Settings} {l : Loop} (h : Loop.start? now s = some l) :
    l.IsFor s := by
  obtain ⟨hpoll, hsend⟩ := Loop.start?_eq_some.mp h
  have hperiod := (Timer.start?_eq_some.mp hpoll).2.1
  split at hsend
  · rename_i hcombined
    refine ⟨hperiod, iff_of_true hsend hcombined, fun send hsome => ?_⟩
    rw [hsend] at hsome
    cases hsome
  · rename_i hcombined
    obtain ⟨hsend, hsome⟩ := hsend
    refine ⟨hperiod, iff_of_false hsome hcombined, fun send hsome => ?_⟩
    rw [hsome] at hsend
    exact (Timer.start?_eq_some.mp hsend).2.1

/-- Being served keeps the period of a timer. -/
theorem Loop.IsFor.next {l l' : Loop} {s : Settings} {now : ℕ} {job : Job} (hl : l.IsFor s)
    (h : l.next? now = some (job, l')) : l'.IsFor s := by
  rcases Loop.next?_eq_some h with ⟨-, -, rfl⟩ | ⟨-, -, send, hsend, -, rfl⟩
  · exact ⟨hl.poll, hl.combined, hl.send⟩
  · refine ⟨hl.poll, iff_of_false nofun fun hcombined => ?_, ?_⟩
    · rw [hl.combined.mpr hcombined] at hsend
      cases hsend
    · rintro _ ⟨⟩
      exact hl.send send hsend

theorem Settings.flaw_of_valid {s : Settings} (h : s.validate = .ok ()) : s.flaw = none := by
  unfold validate at h
  split at h
  · cases h
  · assumption

/-- An instant can hold the time one period from now, for both periods. -/
def Settings.Reaches (s : Settings) (now : ℕ) : Prop :=
  now + s.pollPeriod.nanos < Timer.clockEnd ∧ now + s.sendEvery.nanos < Timer.clockEnd

instance (s : Settings) (now : ℕ) : Decidable (s.Reaches now) :=
  inferInstanceAs (Decidable (_ ∧ _))

/-- Whole milliseconds are within reach as long as the clock is in the first half of its range. -/
theorem Settings.reaches_of_millis {s : Settings} {poll every : Millis}
    (hpoll : s.pollPeriod = .ofMillis poll) (hevery : s.sendEvery = .ofMillis every) {now : ℕ}
    (hnow : now < Timer.clockEnd / 2) : s.Reaches now := by
  have hspan : ∀ m : Millis, now + (Span.ofMillis m).nanos < Timer.clockEnd := by
    intro m
    have hm := m.toNat_lt
    simp only [Span.ofMillis, Timer.clockEnd] at hnow ⊢
    omega
  exact ⟨by rw [hpoll]; exact hspan poll, by rw [hevery]; exact hspan every⟩

/-- Settings that are valid have a loop, where instants can hold the deadlines. -/
theorem Loop.exists_start {s : Settings} (h : s.validate = .ok ()) {now : ℕ}
    (hreach : s.Reaches now) : ∃ l, Loop.start? now s = some l := by
  have hflaw := Settings.flaw_of_valid h
  obtain ⟨hpoll, hsend⟩ : s.pollPeriod ≠ .zero ∧ s.sendPeriod ≠ some .zero := by
    unfold Settings.flaw at hflaw
    split at hflaw
    · cases hflaw
    · rename_i hpoll
      split at hflaw
      · cases hflaw
      · rename_i hsend
        exact ⟨fun h => hpoll (beq_iff_eq.mpr h), fun h => hsend (beq_iff_eq.mpr h)⟩
  have positive : ∀ span : Span, span ≠ .zero → 0 < span.nanos := by
    intro span hspan
    exact Nat.pos_of_ne_zero fun hzero => hspan (congrArg Span.mk hzero)
  have hevery : 0 < s.sendEvery.nanos := by
    unfold Settings.sendEvery
    cases hperiod : s.sendPeriod with
    | none => exact positive _ hpoll
    | some span => exact positive _ fun h => hsend (hperiod.trans (congrArg some h))
  have hstart : ∀ span : Span, 0 < span.nanos → now + span.nanos < Timer.clockEnd →
      ∃ t, Timer.start? now span = some t := fun span hpos hend =>
    ⟨⟨now + span.nanos, span.nanos, hpos⟩, Timer.start?_eq_some.mpr ⟨rfl, rfl, hend⟩⟩
  obtain ⟨poll, hpoll⟩ := hstart _ (positive _ hpoll) hreach.1
  obtain ⟨send, hsend⟩ := hstart _ hevery hreach.2
  by_cases hcombined : s.isCombined = true
  · exact ⟨⟨poll, none⟩, Loop.start?_eq_some.mpr ⟨hpoll, by rw [if_pos hcombined]⟩⟩
  · exact ⟨⟨poll, some send⟩, Loop.start?_eq_some.mpr
      ⟨hpoll, by rw [if_neg hcombined]; exact ⟨hsend, nofun⟩⟩⟩

/-! ### The parties -/

/-- Where the loop of a monitor stands. -/
inductive Phase where
  /-- It has not got to run yet. -/
  | unstarted
  /-- It chooses what is ready at its next turn. -/
  | waiting (loop : Loop)
  /-- It polls since a time of day. -/
  | polling (loop : Loop) (began : Timestamp)
  /-- It sends since a time of day. -/
  | sending (loop : Loop) (began : Timestamp)
  | ended

namespace Phase

/-- The phase in which a job is done. -/
def ofJob (loop : Loop) (began : Timestamp) : Job → Phase
  | .poll => .polling loop began
  | .send => .sending loop began

@[simp]
theorem ofJob_ne_unstarted (loop : Loop) (began : Timestamp) (job : Job) :
    ofJob loop began job ≠ .unstarted := by
  cases job <;> simp [ofJob]

@[simp]
theorem ofJob_ne_ended (loop : Loop) (began : Timestamp) (job : Job) :
    ofJob loop began job ≠ .ended := by
  cases job <;> simp [ofJob]

/-- The timers of the loop, while it runs. -/
def loop? : Phase → Option Loop
  | .waiting loop | .polling loop _ | .sending loop _ => some loop
  | .unstarted | .ended => none

end Phase

/-- Who waits for the end of the loop. -/
inductive Handle where
  /-- Nobody, and nobody has. -/
  | kept
  /-- The call that closed the monitor first. -/
  | awaited
  /-- Nobody any more: the call that did was given up. -/
  | left
  /-- Nobody any more: the call that did has returned. -/
  | joined
deriving Repr, DecidableEq

/-- What the loop receives in place of silence. -/
inductive Receipt where
  | signal
  /-- There were more signals than there is room for. -/
  | missed
  /-- Nobody is left who could send one. -/
  | closed
deriving Repr, DecidableEq

/-- A monitor with its loop and those who may shut it down. -/
structure Runner where
  monitor : Monitor
  phase : Phase := .unstarted
  /-- The signals to shut down that the loop has not received. -/
  signals : ℕ := 0
  handle : Handle := .kept
  /-- Whether the monitor has not been dropped. -/
  owned : Bool := true
  /-- Whether the loop broke off at its start. -/
  broken : Bool := false
  /-- What the runtime says of a task that broke off. -/
  crash : String := ""
  /-- Nanoseconds on the clock of the loop. -/
  now : ℕ := 0
  /-- The time of day. -/
  wall : Timestamp

namespace Runner

/-- What happens next. -/
inductive Action where
  /-- Time passes, to a new time of day. -/
  | pass (span : Span) (wall : Timestamp)
  /-- The loop gets to run: it starts, or it chooses what is ready. -/
  | turn
  /-- The poll or the send at which the loop is comes to its end. -/
  | finish (answers : Answers)
  /-- A task calls the monitor, and the call returns. -/
  | call (call : Call)
  /-- A task closes the monitor. -/
  | close
  /-- The call that waits for the end of the loop returns. -/
  | join
  /-- The call that waits for the end of the loop is given up. -/
  | leave
  /-- The monitor is dropped. -/
  | drop

variable (r : Runner)

/-- What the loop receives at its turn, if anything. -/
def receipt? : Option Receipt :=
  match r.signals with
  | 0 => if r.owned then none else some .closed
  | 1 => some .signal
  | _ => some .missed

/-- A signal to shut down is sent. It is lost where the loop has ended. -/
def signal : Runner :=
  match r.phase with
  | .ended => r
  | _ => { r with signals := r.signals + 1 }

/-- The loop ends. What it has not received is gone with it. -/
def stopped : Runner := { r with phase := .ended, signals := 0 }

/-- The loop breaks off. -/
def brokenOff : Runner := { r with phase := .ended, signals := 0, broken := true }

/-- The loop starts. It breaks off where one of its timers cannot start. -/
def start : Runner :=
  match Loop.start? r.now r.monitor.settings with
  | some loop => { r with phase := .waiting loop }
  | none => r.brokenOff

/-- A turn of the loop. What it receives goes before its timers. -/
def turn : Runner × List Event :=
  match r.phase with
  | .unstarted => (r.start, [Agent.loopNotice r.monitor.settings])
  | .waiting loop =>
    match r.receipt?, loop.next? r.now with
    | some _, _ => (r.stopped, [.noted .loopStopped])
    | none, some (job, loop) => ({ r with phase := Phase.ofJob loop r.wall job }, [])
    | none, none => (r, [])
  | _ => (r, [])

/-- The end of a poll or of a send. -/
def finish (a : Answers) : Runner × List Event :=
  match r.phase with
  | .polling loop began =>
    let (monitor, events) := r.monitor.poll a began
    let phase := if monitor.settings.isCombined then .sending loop r.wall else .waiting loop
    ({ r with monitor, phase }, events)
  | .sending loop began => ({ r with phase := .waiting loop }, r.monitor.sendEvents began)
  | _ => (r, [])

/-- A call that closes the monitor. The first one goes on to wait for the end of the loop. -/
def close : Runner :=
  { r.signal with handle := if r.handle = .kept then .awaited else r.handle }

/-- What is noted when the call that waits for the end of the loop returns. -/
def endNotes : List Event :=
  (if r.broken then [.noted (.loopBroken r.crash)] else []) ++
    [.noted (.closed r.monitor.nodeId "closed"), .noted (.stopped r.monitor.nodeId)]

/-- What happens: the runner behind it, and its effects. -/
def step : Action → Runner × List Event
  | .pass span wall => ({ r with now := r.now + span.nanos, wall }, [])
  | .turn => r.turn
  | .finish a => r.finish a
  | .call call =>
    if r.owned then
      ({ r with monitor := (r.monitor.step call.operation).1 },
        (r.monitor.step call.operation).2)
    else (r, [])
  | .close => if r.owned then (r.close, []) else (r, [])
  | .join =>
    match r.handle, r.phase with
    | .awaited, .ended => ({ r with handle := .joined }, r.endNotes)
    | _, _ => (r, [])
  | .leave => if r.handle = .awaited then ({ r with handle := .left }, []) else (r, [])
  -- a call that waits still holds on to the monitor
  | .drop =>
    if r.owned ∧ r.handle ≠ .awaited then ({ r.signal with owned := false }, []) else (r, [])

/-- The runner behind a run. -/
def after (r : Runner) : List Action → Runner
  | [] => r
  | x :: xs => (r.step x).1.after xs

/-- A monitor whose loop has not got to run yet. -/
def ofMonitor (m : Monitor) (wall : Timestamp) : Runner := { monitor := m, wall }

/-! ### What a run shows -/

section Collect

variable {α : Type} (look : Runner → Action → List α)

/-- What is collected over a run. -/
def collect (r : Runner) : List Action → List α
  | [] => []
  | x :: xs => look r x ++ collect (r.step x).1 xs

theorem collect_append : ∀ (r : Runner) (xs ys : List Action),
    r.collect look (xs ++ ys) = r.collect look xs ++ (r.after xs).collect look ys
  | _, [], _ => rfl
  | r, x :: xs, ys => by
    rw [List.cons_append, collect, collect_append (r.step x).1 xs ys, collect, after,
      List.append_assoc]

end Collect

/-- What is done under the lock of the monitor. -/
def body? : Action → Option Operation
  | .finish a =>
    match r.phase with
    | .polling _ began => some (.poll a began)
    | .sending _ began => some (.send began)
    | _ => none
  | .call call => if r.owned then some call.operation else none
  | _ => none

/-- The job that the loop begins with. -/
def job? : Action → Option Job
  | .turn =>
    match r.phase, r.receipt? with
    | .waiting loop, none => (loop.next? r.now).map (·.1)
    | _, _ => none
  | _ => none

/-- The effects of a run. -/
def effects (xs : List Action) : List Event := r.collect (fun r x => (r.step x).2) xs

/-- What is done under the lock in a run, each with its time. -/
def timed (xs : List Action) : List (ℕ × Operation) :=
  r.collect (fun r x => ((r.body? x).map (r.now, ·)).toList) xs

/-- What is done under the lock in a run. -/
def bodies (xs : List Action) : List Operation := (r.timed xs).map (·.2)

/-- The ticks of the loop in a run, each with its time. -/
def ticks (xs : List Action) : List (ℕ × Tick) := ticksAmong (r.timed xs)

/-- The tick that an action is the end of, with its time. -/
def ticksOf (x : Action) : List (ℕ × Tick) :=
  (((r.body? x).bind Operation.tick?).map (r.now, ·)).toList

/-- The jobs that the loop begins with in a run, each with its time. -/
def starts (xs : List Action) : List (ℕ × Job) :=
  r.collect (fun r x => ((r.job? x).map (r.now, ·)).toList) xs

variable {r}

theorem after_append : ∀ (r : Runner) (xs ys : List Action),
    r.after (xs ++ ys) = (r.after xs).after ys
  | _, [], _ => rfl
  | r, x :: xs, ys => after_append (r.step x).1 xs ys

theorem after_concat (r : Runner) (xs : List Action) (x : Action) :
    r.after (xs ++ [x]) = ((r.after xs).step x).1 := after_append r xs [x]

/-- What every action keeps holds behind every run. -/
theorem after_induction {I : Runner → Prop} (hstep : ∀ r x, I r → I (r.step x).1) :
    ∀ (r : Runner) (xs : List Action), I r → I (r.after xs)
  | _, [], h => h
  | r, x :: xs, h => after_induction hstep (r.step x).1 xs (hstep r x h)

theorem timed_append (r : Runner) (xs ys : List Action) :
    r.timed (xs ++ ys) = r.timed xs ++ (r.after xs).timed ys := collect_append _ r xs ys

theorem ticks_append (r : Runner) (xs ys : List Action) :
    r.ticks (xs ++ ys) = r.ticks xs ++ (r.after xs).ticks ys := by
  rw [ticks, timed_append, ticksAmong_append]
  rfl

theorem bodies_cons (r : Runner) (x : Action) (xs : List Action) :
    r.bodies (x :: xs) = (r.body? x).toList ++ (r.step x).1.bodies xs := by
  rw [bodies, timed, collect, List.map_append]
  cases r.body? x <;> rfl

theorem ticks_cons (r : Runner) (x : Action) (xs : List Action) :
    r.ticks (x :: xs) = r.ticksOf x ++ (r.step x).1.ticks xs := by
  rw [ticks, timed, collect, ticksAmong_append, ticksOf]
  refine congrArg (· ++ (r.step x).1.ticks xs) ?_
  cases hbody : r.body? x with
  | none => rfl
  | some op =>
    rw [Option.bind_some]
    cases htick : op.tick? <;> simp [ticksAmong, htick]

theorem effects_cons (r : Runner) (x : Action) (xs : List Action) :
    r.effects (x :: xs) = (r.step x).2 ++ (r.step x).1.effects xs := rfl

theorem starts_cons (r : Runner) (x : Action) (xs : List Action) :
    r.starts (x :: xs) = ((r.job? x).map (r.now, ·)).toList ++ (r.step x).1.starts xs := rfl

/-! ### What a step can do -/

/-- Signals change nothing but the number of those that the loop has not received. -/
theorem signal_eq (r : Runner) : ∃ signals, r.signal = { r with signals } := by
  unfold signal
  split
  · exact ⟨r.signals, rfl⟩
  · exact ⟨_, rfl⟩

/-- A turn moves the loop and leaves everything else alone. -/
theorem turn_eq (r : Runner) :
    ∃ phase signals broken, r.turn.1 = { r with phase, signals, broken } := by
  unfold turn start stopped brokenOff
  split
  · split
    · exact ⟨_, r.signals, r.broken, rfl⟩
    · exact ⟨_, _, _, rfl⟩
  · split
    · exact ⟨_, _, r.broken, rfl⟩
    · exact ⟨_, r.signals, r.broken, rfl⟩
    · exact ⟨r.phase, r.signals, r.broken, rfl⟩
  · exact ⟨r.phase, r.signals, r.broken, rfl⟩

/-- What happens does to the monitor what is done under its lock. -/
theorem monitor_step (r : Runner) (x : Action) :
    (r.step x).1.monitor = r.monitor.after (r.body? x).toList := by
  cases x with
  | pass span wall => rfl
  | turn =>
    obtain ⟨phase, signals, broken, h⟩ := r.turn_eq
    rw [step, h]
    rfl
  | finish a =>
    simp only [step, finish, body?]
    cases r.phase <;> rfl
  | call call =>
    simp only [step, body?]
    cases r.owned <;> rfl
  | close =>
    obtain ⟨signals, h⟩ := r.signal_eq
    simp only [step, close, h]
    cases r.owned <;> rfl
  | join =>
    simp only [step]
    split <;> rfl
  | leave =>
    simp only [step]
    split <;> rfl
  | drop =>
    obtain ⟨signals, h⟩ := r.signal_eq
    simp only [step, h]
    split <;> rfl

/-- **A run does to the monitor what the operations under its lock do**, in their order. -/
theorem monitor_after : ∀ (r : Runner) (xs : List Action),
    (r.after xs).monitor = r.monitor.after (r.bodies xs)
  | _, [] => rfl
  | r, x :: xs => by
    rw [after, monitor_after (r.step x).1 xs, monitor_step, bodies_cons, Monitor.after_append]

theorem sameMake_after (r : Runner) (xs : List Action) :
    Monitor.SameMake r.monitor (r.after xs).monitor := by
  rw [monitor_after]
  exact r.monitor.after_sameMake _

/-- Those who call the monitor or shut the loop down leave the loop and its clock alone. -/
theorem step_eq (r : Runner) {x : Action} (hpass : ∀ span wall, x ≠ .pass span wall)
    (hturn : x ≠ .turn) (hfinish : ∀ a, x ≠ .finish a) :
    ∃ monitor signals handle owned,
      (r.step x).1 = { r with monitor, signals, handle, owned } := by
  obtain ⟨signals, hsignal⟩ := r.signal_eq
  cases x with
  | pass span wall => exact absurd rfl (hpass span wall)
  | turn => exact absurd rfl hturn
  | finish a => exact absurd rfl (hfinish a)
  | call call =>
    rw [step]
    split <;> exact ⟨_, _, _, _, rfl⟩
  | close =>
    rw [step, close, hsignal]
    split <;> exact ⟨_, _, _, _, rfl⟩
  | join =>
    rw [step]
    split <;> exact ⟨_, _, _, _, rfl⟩
  | leave =>
    rw [step]
    split <;> exact ⟨_, _, _, _, rfl⟩
  | drop =>
    rw [step, hsignal]
    split <;> exact ⟨_, _, _, _, rfl⟩

/-- Only turns and the ends of ticks move the loop on. -/
theorem phase_step (r : Runner) {x : Action} (hturn : x ≠ .turn) (hfinish : ∀ a, x ≠ .finish a) :
    (r.step x).1.phase = r.phase := by
  by_cases hpass : ∃ span wall, x = .pass span wall
  · obtain ⟨span, wall, rfl⟩ := hpass
    rfl
  · obtain ⟨_, _, _, _, h⟩ :=
      r.step_eq (fun span wall h => hpass ⟨span, wall, h⟩) hturn hfinish
    rw [h]

theorem finish_of_polling {loop : Loop} {began : Timestamp} (h : r.phase = .polling loop began)
    (a : Answers) : r.finish a =
      ({ r with
        monitor := r.monitor.polled a began
        phase := if r.monitor.settings.isCombined then .sending loop r.wall else .waiting loop },
        r.monitor.pollEvents a began) := by
  rw [finish, h]
  rfl

theorem finish_of_sending {loop : Loop} {began : Timestamp} (h : r.phase = .sending loop began)
    (a : Answers) :
    r.finish a = ({ r with phase := .waiting loop }, r.monitor.sendEvents began) := by
  rw [finish, h]

/-- What the end of a tick does: it ends a poll, it ends a send, or nothing was in flight. -/
theorem finish_cases (r : Runner) (a : Answers) :
    (∃ loop began, r.phase = .polling loop began ∧ r.body? (.finish a) = some (.poll a began) ∧
      r.finish a = ({ r with
        monitor := r.monitor.polled a began
        phase := if r.monitor.settings.isCombined then .sending loop r.wall else .waiting loop },
        r.monitor.pollEvents a began)) ∨
    (∃ loop began, r.phase = .sending loop began ∧ r.body? (.finish a) = some (.send began) ∧
      r.finish a = ({ r with phase := .waiting loop }, r.monitor.sendEvents began)) ∨
    ((∀ loop began, r.phase ≠ .polling loop began ∧ r.phase ≠ .sending loop began) ∧
      r.body? (.finish a) = none ∧ r.finish a = (r, [])) := by
  cases hphase : r.phase with
  | polling loop began =>
    exact Or.inl ⟨loop, began, rfl, by rw [body?, hphase], finish_of_polling hphase a⟩
  | sending loop began =>
    exact Or.inr (Or.inl ⟨loop, began, rfl, by rw [body?, hphase], finish_of_sending hphase a⟩)
  | _ =>
    exact Or.inr (Or.inr ⟨fun _ _ => ⟨nofun, nofun⟩, by rw [body?, hphase], by rw [finish, hphase]⟩)

/-- The end of a tick leaves the timers alone. -/
theorem loop?_finish (r : Runner) (a : Answers) : (r.finish a).1.phase.loop? = r.phase.loop? := by
  rcases r.finish_cases a with ⟨loop, began, hphase, -, he⟩ | ⟨loop, began, hphase, -, he⟩ |
    ⟨-, -, he⟩
  · rw [he, hphase]
    dsimp only
    split <;> rfl
  · rw [he, hphase]
    rfl
  · rw [he]

/-- Only turns change the timers. -/
theorem loop?_step (r : Runner) {x : Action} (hturn : x ≠ .turn) :
    (r.step x).1.phase.loop? = r.phase.loop? := by
  by_cases hfinish : ∃ a, x = .finish a
  · obtain ⟨a, rfl⟩ := hfinish
    exact r.loop?_finish a
  · rw [r.phase_step hturn fun a ha => hfinish ⟨a, ha⟩]

/-- What a turn does: the loop starts, it ends, it begins with a job, or nothing. -/
theorem turn_cases (r : Runner) :
    (r.phase = .unstarted ∧ r.job? .turn = none ∧
      r.turn = (r.start, [Agent.loopNotice r.monitor.settings])) ∨
    (∃ loop, r.phase = .waiting loop ∧ r.receipt?.isSome = true ∧ r.job? .turn = none ∧
      r.turn = (r.stopped, [.noted .loopStopped])) ∨
    (∃ loop job loop', r.phase = .waiting loop ∧ r.receipt? = none ∧
      loop.next? r.now = some (job, loop') ∧ r.job? .turn = some job ∧
      r.turn = ({ r with phase := Phase.ofJob loop' r.wall job }, [])) ∨
    ((∀ loop, r.phase = .waiting loop → r.receipt? = none ∧ loop.next? r.now = none) ∧
      r.phase ≠ .unstarted ∧ r.job? .turn = none ∧ r.turn = (r, [])) := by
  unfold turn job?
  cases hphase : r.phase with
  | unstarted => exact Or.inl ⟨rfl, rfl, rfl⟩
  | waiting loop =>
    dsimp only
    cases hreceipt : r.receipt? with
    | some receipt => exact Or.inr (Or.inl ⟨loop, rfl, rfl, rfl, rfl⟩)
    | none =>
      cases hnext : loop.next? r.now with
      | some next =>
        refine Or.inr (Or.inr (Or.inl ⟨loop, next.1, next.2, rfl, rfl, hnext, ?_, rfl⟩))
        dsimp only
        rw [hnext, Option.map_some]
      | none =>
        refine Or.inr (Or.inr (Or.inr ⟨?_, nofun, ?_, rfl⟩))
        · rintro _ ⟨⟩
          exact ⟨rfl, hnext⟩
        · dsimp only
          rw [hnext, Option.map_none]
  | _ => exact Or.inr (Or.inr (Or.inr ⟨nofun, nofun, rfl, rfl⟩))

/-- Nothing but a turn begins with a job. -/
theorem job?_of_ne_turn (r : Runner) {x : Action} (h : x ≠ .turn) : r.job? x = none := by
  cases x with
  | turn => exact absurd rfl h
  | _ => rfl

/-- Nothing but the passing of time moves the clock. -/
theorem now_step_of_ne_pass (r : Runner) {x : Action} (hx : ∀ span wall, x ≠ .pass span wall) :
    (r.step x).1.now = r.now := by
  by_cases hturn : x = .turn
  · subst hturn
    obtain ⟨phase, signals, broken, h⟩ := r.turn_eq
    rw [step, h]
  by_cases hfinish : ∃ a, x = .finish a
  · obtain ⟨a, rfl⟩ := hfinish
    rcases r.finish_cases a with ⟨_, _, -, -, h⟩ | ⟨_, _, -, -, h⟩ | ⟨-, -, h⟩ <;> rw [step, h]
  · obtain ⟨_, _, _, _, h⟩ := r.step_eq hx hturn fun a ha => hfinish ⟨a, ha⟩
    rw [h]

theorem now_step (r : Runner) (x : Action) : r.now ≤ (r.step x).1.now := by
  cases x with
  | pass span wall => exact Nat.le_add_right _ _
  | _ => exact (r.now_step_of_ne_pass (by nofun)).ge

/-- Nothing but the end of a tick is one. -/
theorem ticksOf_of_ne_finish (r : Runner) {x : Action} (hx : ∀ a, x ≠ .finish a) :
    r.ticksOf x = [] := by
  cases x with
  | finish a => exact absurd rfl (hx a)
  | call call =>
    rw [ticksOf, body?]
    split
    · rw [Option.bind_some, call.tick?_operation]
      rfl
    · rfl
  | _ => rfl

/-- A loop breaks off at a turn. -/
theorem broken_step_of_ne_turn (r : Runner) {x : Action} (hturn : x ≠ .turn) :
    (r.step x).1.broken = r.broken := by
  by_cases hpass : ∃ span wall, x = .pass span wall
  · obtain ⟨span, wall, rfl⟩ := hpass
    rfl
  by_cases hfinish : ∃ a, x = .finish a
  · obtain ⟨a, rfl⟩ := hfinish
    rcases r.finish_cases a with ⟨_, _, -, -, h⟩ | ⟨_, _, -, -, h⟩ | ⟨-, -, h⟩ <;> rw [step, h]
  · obtain ⟨_, _, _, _, h⟩ := r.step_eq (fun span wall h => hpass ⟨span, wall, h⟩) hturn
      fun a ha => hfinish ⟨a, ha⟩
    rw [h]

theorem crash_step (r : Runner) (x : Action) : (r.step x).1.crash = r.crash := by
  by_cases hpass : ∃ span wall, x = .pass span wall
  · obtain ⟨span, wall, rfl⟩ := hpass
    rfl
  by_cases hturn : x = .turn
  · subst hturn
    obtain ⟨_, _, _, h⟩ := r.turn_eq
    rw [step, h]
  by_cases hfinish : ∃ a, x = .finish a
  · obtain ⟨a, rfl⟩ := hfinish
    rcases r.finish_cases a with ⟨_, _, -, -, h⟩ | ⟨_, _, -, -, h⟩ | ⟨-, -, h⟩ <;> rw [step, h]
  · obtain ⟨_, _, _, _, h⟩ := r.step_eq (fun span wall h => hpass ⟨span, wall, h⟩) hturn
      fun a ha => hfinish ⟨a, ha⟩
    rw [h]

/-- The loop ends once. -/
theorem ended_step (r : Runner) (x : Action) (h : r.phase = .ended) :
    (r.step x).1.phase = .ended := by
  cases x with
  | turn => simp only [step, turn, h]
  | finish a => simp only [step, finish, h]
  | _ => exact (r.phase_step (by nofun) (by simp)).trans h

/-- A loop that has started does not start again. -/
theorem started_step (r : Runner) (x : Action) (h : r.phase ≠ .unstarted) :
    (r.step x).1.phase ≠ .unstarted := by
  cases x with
  | turn =>
    rcases r.turn_cases with ⟨hphase, -⟩ | ⟨_, -, -, -, he⟩ | ⟨_, _, _, -, -, -, -, he⟩ |
      ⟨-, -, -, he⟩
    · exact absurd hphase h
    · rw [step, he]
      exact nofun
    · rw [step, he]
      exact Phase.ofJob_ne_unstarted _ _ _
    · rw [step, he]
      exact h
  | finish a =>
    rcases r.finish_cases a with ⟨_, _, -, -, he⟩ | ⟨_, _, -, -, he⟩ | ⟨-, -, he⟩
    · rw [step, he]
      dsimp only
      split <;> exact nofun
    · rw [step, he]
      exact nofun
    · rw [step, he]
      exact h
  | _ => exact fun hphase => h ((r.phase_step (by nofun) (by simp)).symm.trans hphase)

/-- No job begins behind the end of the loop. -/
theorem starts_of_ended : ∀ (r : Runner) (xs : List Action), r.phase = .ended → r.starts xs = []
  | _, [], _ => rfl
  | r, x :: xs, h => by
    have hjob : r.job? x = none := by
      cases x with
      | turn =>
        rw [job?, h]
      | _ => rfl
    rw [starts_cons, hjob, starts_of_ended (r.step x).1 xs (r.ended_step x h)]
    rfl

/-- Behind the end of the loop only calls do something under the lock. -/
theorem body?_of_ended (h : r.phase = .ended) {x : Action} {op : Operation}
    (hbody : r.body? x = some op) : ∃ call : Call, op = call.operation := by
  cases x with
  | finish a =>
    rw [body?, h] at hbody
    cases hbody
  | call call =>
    rw [body?] at hbody
    split at hbody
    · cases hbody
      exact ⟨call, rfl⟩
    · cases hbody
  | _ => cases hbody

theorem ticksOf_of_ended (h : r.phase = .ended) (x : Action) : r.ticksOf x = [] := by
  rw [ticksOf]
  cases hbody : r.body? x with
  | none => rfl
  | some op =>
    obtain ⟨call, rfl⟩ := body?_of_ended h hbody
    rw [Option.bind_some, call.tick?_operation]
    rfl

/-- Nothing ticks behind the end of the loop. -/
theorem ticks_of_ended : ∀ (r : Runner) (xs : List Action), r.phase = .ended → r.ticks xs = []
  | _, [], _ => rfl
  | r, x :: xs, h => by
    rw [ticks_cons, ticksOf_of_ended h, ticks_of_ended (r.step x).1 xs (r.ended_step x h)]
    rfl

/-- Jobs begin no earlier than the run. -/
theorem now_le_of_mem_starts : ∀ (r : Runner) (xs : List Action), ∀ start ∈ r.starts xs,
    r.now ≤ start.1
  | _, [], _, h => nomatch h
  | r, x :: xs, start, h => by
    rw [starts_cons, List.mem_append, Option.mem_toList, Option.map_eq_some_iff] at h
    rcases h with ⟨job, -, rfl⟩ | h
    · exact Nat.le_refl _
    · exact (r.now_step x).trans (now_le_of_mem_starts (r.step x).1 xs start h)

/-- The timers of the loop are those of the settings, while it runs. -/
def IsTimed (r : Runner) : Prop :=
  ∀ loop, r.phase.loop? = some loop → loop.IsFor r.monitor.settings

theorem settings_step (r : Runner) (x : Action) :
    (r.step x).1.monitor.settings = r.monitor.settings :=
  (r.sameMake_after [x]).settings

theorem isTimed_step (r : Runner) (x : Action) (h : r.IsTimed) : (r.step x).1.IsTimed := by
  by_cases hturn : x = .turn
  · subst hturn
    intro loop hloop
    rw [settings_step]
    rw [step] at hloop
    rcases r.turn_cases with ⟨-, -, he⟩ | ⟨-, -, -, -, he⟩ |
      ⟨loop₀, job, loop', hphase, -, hnext, -, he⟩ | ⟨-, -, -, he⟩
    · rw [he, start] at hloop
      split at hloop
      · rename_i hstart
        cases hloop
        exact Loop.isFor_start hstart
      · cases hloop
    · rw [he] at hloop
      cases hloop
    · have hfor : loop'.IsFor r.monitor.settings := (h loop₀ (by rw [hphase]; rfl)).next hnext
      rw [he] at hloop
      cases job <;> cases hloop <;> exact hfor
    · rw [he] at hloop
      exact h loop hloop
  · intro loop hloop
    rw [settings_step]
    rw [r.loop?_step hturn] at hloop
    exact h loop hloop

/-- The loop of every run has the timers of the settings of its monitor. -/
theorem loop_after (m : Monitor) (wall : Timestamp) (xs : List Action) :
    ((ofMonitor m wall).after xs).IsTimed :=
  after_induction isTimed_step _ xs nofun

/-! ### Jobs from their beginning to their end -/

/-- The monitor behind a job, and the effects of the job. -/
def jobOf (m : Monitor) (a : Answers) (now : Timestamp) : Job → Monitor × List Event
  | .poll =>
    (m.polled a now,
      m.pollEvents a now ++ if m.settings.isCombined then (m.polled a now).sendEvents now else [])
  | .send => (m, m.sendEvents now)

/-- The monitor behind jobs, and their effects. -/
def jobsOf (m : Monitor) (a : Answers) (now : Timestamp) : List Job → Monitor × List Event
  | [] => (m, [])
  | job :: jobs =>
    let (m, first) := jobOf m a now job
    let (m, rest) := jobsOf m a now jobs
    (m, first ++ rest)

/-- What the loop goes through to do a job. -/
def actionsOf (s : Settings) (a : Answers) : Job → List Action
  | .poll => .turn :: .finish a :: if s.isCombined then [.finish a] else []
  | .send => [.turn, .finish a]

theorem turn_of_next {loop loop' : Loop} {job : Job} (hphase : r.phase = .waiting loop)
    (hreceipt : r.receipt? = none) (hnext : loop.next? r.now = some (job, loop')) :
    r.step .turn = ({ r with phase := Phase.ofJob loop' r.wall job }, []) := by
  rw [step, turn, hphase]
  dsimp only
  rw [hreceipt, hnext]

/-- A job that is next is done, and its timer is put off. -/
theorem after_job {loop loop' : Loop} {job : Job} (hphase : r.phase = .waiting loop)
    (hreceipt : r.receipt? = none) (hnext : loop.next? r.now = some (job, loop'))
    (a : Answers) :
    r.after (actionsOf r.monitor.settings a job) =
        { r with monitor := (jobOf r.monitor a r.wall job).1, phase := .waiting loop' } ∧
      r.effects (actionsOf r.monitor.settings a job) = (jobOf r.monitor a r.wall job).2 := by
  have hturn := turn_of_next hphase hreceipt hnext
  cases job with
  | send =>
    constructor
    · rw [actionsOf, after, hturn]
      rfl
    · rw [actionsOf, effects_cons, hturn]
      rfl
  | poll =>
    have hfinish := finish_of_polling (r := { r with phase := .polling loop' r.wall }) rfl a
    rw [jobOf, actionsOf]
    cases hcombined : r.monitor.settings.isCombined with
    | false =>
      simp only [hcombined, Bool.false_eq_true, ↓reduceIte] at hfinish
      rw [if_neg Bool.false_ne_true, if_neg Bool.false_ne_true]
      constructor
      · rw [after, hturn]
        exact congrArg Prod.fst hfinish
      · rw [effects_cons, hturn]
        exact congrArg (·.2 ++ []) hfinish
    | true =>
      simp only [hcombined, ↓reduceIte] at hfinish
      rw [if_pos rfl, if_pos rfl]
      constructor
      · rw [after, hturn, after, step, Phase.ofJob, hfinish]
        rfl
      · rw [effects_cons, hturn, effects_cons, step, Phase.ofJob, hfinish]
        rfl

theorem effects_append (r : Runner) (xs ys : List Action) :
    r.effects (xs ++ ys) = r.effects xs ++ (r.after xs).effects ys := collect_append _ r xs ys

/-- All jobs that are due are done, and behind them nothing is. -/
theorem after_due (a : Answers) (loop : Loop) (now : ℕ) : ∀ r : Runner,
    r.phase = .waiting loop → r.receipt? = none → r.now = now →
    let due := loop.due now
    let xs := due.1.flatMap (actionsOf r.monitor.settings a)
    r.after xs =
        { r with monitor := (jobsOf r.monitor a r.wall due.1).1, phase := .waiting due.2 } ∧
      r.effects xs = (jobsOf r.monitor a r.wall due.1).2 ∧ due.2.next? now = none := by
  fun_induction Loop.due loop now with
  | case1 loop hnext =>
    intro r hphase _ _
    refine ⟨?_, rfl, hnext⟩
    rw [← hphase]
    rfl
  | case2 loop job loop' hnext jobs loop'' hdue ih =>
    intro r hphase hreceipt hnow
    rw [← hnow] at hnext
    obtain ⟨hafter, heffects⟩ := after_job hphase hreceipt hnext a
    have hsettings : (jobOf r.monitor a r.wall job).1.settings = r.monitor.settings := by
      cases job <;> rfl
    obtain ⟨hafter', heffects', hnone⟩ := ih
      { r with monitor := (jobOf r.monitor a r.wall job).1, phase := .waiting loop' }
      rfl hreceipt hnow
    rw [hsettings, hdue] at hafter' heffects'
    rw [hdue] at hnone
    refine ⟨?_, ?_, hnone⟩
    · rw [List.flatMap_cons, after_append, hafter, hafter']
      rfl
    · rw [List.flatMap_cons, effects_append, hafter, heffects, heffects']
      rfl

/-! ### A node with a timer for snapshots -/

/-- The small node, with a poll every second and a snapshot every second and a half. -/
def pacedNode : Blueprint :=
  { Monitor.smallNode with
    settings := { Monitor.smallNode.settings with sendPeriod := some (.ofMillis 1500) } }

def pacedMonitor : Monitor := { Monitor.smallMonitor with settings := pacedNode.settings }

theorem build_pacedNode :
    (Monitor.build pacedNode (Monitor.underLoad 10 none).answers).result = .ok pacedMonitor := rfl

end Runner

/-! ### Agents -/

namespace Agent

open Runner

/-- The agent as a runner. Its loop waits for its next turn, broke off at its start, or was shut
down by a call that has returned. -/
def runner (a : Agent) : Runner :=
  { monitor := a.monitor
    phase := a.loop.elim .ended .waiting
    handle := if a.loop.isSome || a.broken then .kept else .joined
    broken := a.broken
    crash := a.crash
    now := a.elapsed
    wall := a.wall }

/-- What the loop goes through to do all jobs that are due. -/
def turns (a : Agent) (given : Answers) : List Action :=
  (a.loop.elim [] fun loop => (loop.due a.elapsed).1).flatMap (actionsOf a.monitor.settings given)

variable (a : Agent) (given : Answers)

/-- Carrying an effect out changes nothing but the queue. -/
theorem carryOut_eq (event : Event) : ∃ queue, (a.carryOut event).1 = { a with queue } := by
  cases event with
  | delivered s =>
    simp only [carryOut, deliver]
    split
    · exact ⟨a.queue, rfl⟩
    · exact ⟨_, rfl⟩
  | _ => exact ⟨a.queue, rfl⟩

/-- How an effect is carried out depends on the monitor by the name of its node alone. -/
theorem carryOut_with {monitor : Monitor} (h : monitor.nodeId = a.monitor.nodeId)
    (loop : Option Loop) (event : Event) :
    { a with monitor, loop }.carryOut event =
      ({ (a.carryOut event).1 with monitor, loop }, (a.carryOut event).2) := by
  cases event with
  | delivered s => rcases a with ⟨_, _, _, _, _, _, _, _ | queue, _, _⟩ <;> rfl
  | alerted record =>
    unfold carryOut
    dsimp only
    rw [h]
  | _ => rfl

theorem carryOutAll_eq : ∀ (a : Agent) (events : List Event),
    ∃ queue, (a.carryOutAll events).1 = { a with queue }
  | a, [] => ⟨a.queue, rfl⟩
  | a, event :: events => by
    obtain ⟨queue, h⟩ := a.carryOut_eq event
    obtain ⟨queue', h'⟩ := carryOutAll_eq (a.carryOut event).1 events
    refine ⟨queue', ?_⟩
    rw [carryOutAll]
    exact h'.trans (by rw [h])

theorem carryOutAll_with : ∀ (a : Agent) (monitor : Monitor), monitor.nodeId = a.monitor.nodeId →
    ∀ (loop : Option Loop) (events : List Event),
      { a with monitor, loop }.carryOutAll events =
        ({ (a.carryOutAll events).1 with monitor, loop }, (a.carryOutAll events).2)
  | _, _, _, _, [] => rfl
  | a, monitor, h, loop, event :: events => by
    obtain ⟨queue, hqueue⟩ := a.carryOut_eq event
    have hname : monitor.nodeId = (a.carryOut event).1.monitor.nodeId := by rw [hqueue, h]
    simp only [carryOutAll, carryOut_with a h, carryOutAll_with (a.carryOut event).1 monitor hname]

theorem carryOutAll_append : ∀ (a : Agent) (events more : List Event),
    a.carryOutAll (events ++ more) =
      (((a.carryOutAll events).1.carryOutAll more).1,
        (a.carryOutAll events).2 ++ ((a.carryOutAll events).1.carryOutAll more).2)
  | _, [], _ => rfl
  | a, event :: events, more => by
    simp only [List.cons_append, carryOutAll, carryOutAll_append (a.carryOut event).1 events more,
      List.append_assoc]

/-- An agent does a job as its monitor does it, and carries the effects out. -/
theorem perform_eq (job : Job) :
    let done := jobOf a.monitor given a.wall job
    a.perform given job =
      ({ (a.carryOutAll done.2).1 with monitor := done.1, loop := a.loop },
        (a.carryOutAll done.2).2) := by
  cases job with
  | send =>
    obtain ⟨queue, hqueue⟩ := a.carryOutAll_eq (a.monitor.sendEvents a.wall)
    refine Prod.ext ?_ rfl
    rw [perform, send, jobOf, hqueue]
  | poll =>
    have hpoll : a.poll given =
        ({ (a.carryOutAll (a.monitor.pollEvents given a.wall)).1 with
            monitor := a.monitor.polled given a.wall, loop := a.loop },
          (a.carryOutAll (a.monitor.pollEvents given a.wall)).2) :=
      carryOutAll_with a (a.monitor.polled given a.wall) rfl a.loop _
    obtain ⟨queue, hqueue⟩ := a.carryOutAll_eq (a.monitor.pollEvents given a.wall)
    rw [hqueue] at hpoll
    rw [perform, hpoll, jobOf]
    dsimp only
    have hsettings : (a.monitor.polled given a.wall).settings = a.monitor.settings := rfl
    rw [hsettings]
    cases hcombined : a.monitor.settings.isCombined with
    | false =>
      rw [if_neg Bool.false_ne_true, if_neg Bool.false_ne_true, List.append_nil, hqueue]
    | true =>
      rw [if_pos rfl, if_pos rfl, carryOutAll_append, hqueue]
      have hsend := carryOutAll_with { a with queue } (a.monitor.polled given a.wall)
        rfl a.loop ((a.monitor.polled given a.wall).sendEvents a.wall)
      simp only [send, hsend]

/-- An agent does jobs as its monitor does them, and carries the effects out. -/
theorem performAll_eq : ∀ (a : Agent) (jobs : List Job),
    let done := jobsOf a.monitor given a.wall jobs
    a.performAll given jobs =
      ({ (a.carryOutAll done.2).1 with monitor := done.1, loop := a.loop },
        (a.carryOutAll done.2).2)
  | a, [] => rfl
  | a, job :: jobs => by
    have hname : (jobOf a.monitor given a.wall job).1.nodeId = a.monitor.nodeId := by
      cases job <;> rfl
    obtain ⟨queue, hqueue⟩ := a.carryOutAll_eq (jobOf a.monitor given a.wall job).2
    have hperform := a.perform_eq given job
    dsimp only at hperform
    rw [hqueue] at hperform
    have hrest := carryOutAll_with { a with queue } _ hname a.loop
      (jobsOf (jobOf a.monitor given a.wall job).1 given a.wall jobs).2
    have hboth := a.carryOutAll_append (jobOf a.monitor given a.wall job).2
      (jobsOf (jobOf a.monitor given a.wall job).1 given a.wall jobs).2
    rw [hqueue] at hboth
    simp only [performAll, hperform, performAll_eq _ jobs, hrest, jobsOf, hboth]

/-- An agent serves its timers as its runner takes its turns, and carries the effects out. -/
theorem runner_serveTimers :
    (a.serveTimers given).1.runner = a.runner.after (a.turns given) ∧
      (a.serveTimers given).2 = (a.carryOutAll (a.runner.effects (a.turns given))).2 := by
  cases hloop : a.loop with
  | none =>
    rw [serveTimers, turns, hloop]
    exact ⟨rfl, rfl⟩
  | some loop =>
    have hphase : a.runner.phase = .waiting loop := by rw [runner, hloop, Option.elim_some]
    obtain ⟨hafter, heffects, -⟩ := after_due given loop a.elapsed a.runner hphase rfl rfl
    have hdone := performAll_eq given { a with loop := some (loop.due a.elapsed).2 }
      (loop.due a.elapsed).1
    have hcarried := carryOutAll_with a a.monitor rfl (some (loop.due a.elapsed).2)
      (jobsOf a.monitor given a.wall (loop.due a.elapsed).1).2
    obtain ⟨queue, hqueue⟩ := a.carryOutAll_eq (jobsOf a.monitor given a.wall (loop.due a.elapsed).1).2
    have hturns : a.turns given =
        (loop.due a.elapsed).1.flatMap (actionsOf a.runner.monitor.settings given) := by
      rw [turns, hloop, Option.elim_some]
      rfl
    rw [hturns, hafter, heffects, serveTimers, hloop]
    simp only [hdone, hcarried, hqueue]
    refine ⟨?_, rfl⟩
    simp only [runner, hloop]
    rfl

/-- **An agent that lets time pass is a runner that goes on to its next deadline**, and then
takes its turns at once. -/
theorem runner_pass (span : Span) (wall : Timestamp) :
    (a.pass span wall given).1.runner = a.runner.after (.pass span wall ::
      { a with elapsed := a.elapsed + span.nanos, wall }.turns given) := by
  have hforward : ∀ a : Agent, a.serveForwarder.1.runner = a.runner := by
    intro a
    unfold serveForwarder
    split <;> rfl
  rw [pass, after]
  exact (hforward _).trans (runner_serveTimers { a with elapsed := _, wall } given).1

/-- An agent over a monitor is a runner whose loop has got to run. -/
theorem runner_ofMonitor (m : Monitor) (wall : Timestamp) (sink : AlertSink)
    (queue : Option (Queue Snapshot)) :
    (Agent.ofMonitor m wall sink queue).runner = (Runner.ofMonitor m wall).after [.turn] := by
  show _ = (Runner.ofMonitor m wall).start
  unfold start runner Agent.ofMonitor
  show _ = match Loop.start? 0 m.settings with
    | some loop => { Runner.ofMonitor m wall with phase := .waiting loop }
    | none => (Runner.ofMonitor m wall).brokenOff
  cases Loop.start? 0 m.settings <;> rfl

theorem monitor_close : a.close.1.monitor = a.monitor := by
  unfold close
  cases a.loop with
  | none =>
    dsimp only
    split <;> rfl
  | some loop => rfl

/-- Shutting an agent down is a close of its runner that is waited for. -/
theorem runner_close (h : a.broken = false) :
    a.close.1.runner = a.runner.after [.close, .turn, .join] ∧
      a.close.2 = a.runner.effects [.close, .turn, .join] := by
  rcases a with ⟨_, _ | loop, _, _, _, _, _, _, _, _⟩ <;> cases h <;> exact ⟨rfl, rfl⟩

/-- An agent whose loop broke off notes that when it is shut down. -/
theorem close_of_broken (hloop : a.loop = none) (h : a.broken = true) :
    a.close.2 = a.runner.effects [.close, .turn, .join] := by
  rcases a with ⟨_, _, _, _, _, _, _, _, _, _⟩
  cases hloop
  cases h
  rfl

end Agent

end QuotaWatch
