/-
# The timetable of a loop

A loop that is served at its deadlines, and whose ticks take no time, keeps a
timetable: a poll at every multiple of the poll period since its start, and a
snapshot at every multiple of the send period, the poll first where they meet.
What a run has done, together with what is due at its present time, is the
timetable up to that time; every action keeps this (`Runner.InTime.step`).

The last poll before a snapshot is therefore the one at the greatest multiple of
the poll period. Since then nothing but starts and stops has touched the records,
so the snapshot carries what that poll left (`Runner.timetable_of_run`).

A period may be so long that no instant can hold the first deadline. Then the loop
breaks off at its start, with the timer whose deadlines it could reach
(`Runner.not_timetable_of_endlessNode`).

Key definitions: `timetable`, `Timer.OnTime`, `Runner.isPunctual`, `Runner.InTime`.
Key theorems: `Timer.OnTime.isDue_iff`, `getLast?_polls_timetable`,
`Runner.InTime.step`, `Runner.begun_of_reaches`, `Runner.timetable_of_run`,
`Runner.ticks_of_unreachable`.
-/
import QuotaWatch.Proofs.Agent.Runner

namespace QuotaWatch

open Time

/-! ### Timetables -/

/-- The ticks at a time since the start, for a poll period and a send period. -/
def ticksAt (poll send t : ℕ) : List Tick :=
  (if poll ∣ t then [.poll] else []) ++ if send ∣ t then [.send] else []

/-- The ticks behind a start and up to a horizon, each with its time. -/
def timetable (poll send start horizon : ℕ) : List (ℕ × Tick) :=
  (List.range horizon).flatMap fun t => (ticksAt poll send (t + 1)).map (start + (t + 1), ·)

section Timetable

variable (poll send start : ℕ)

theorem timetable_succ (h : ℕ) : timetable poll send start (h + 1) =
    timetable poll send start h ++ (ticksAt poll send (h + 1)).map (start + (h + 1), ·) := by
  rw [timetable, List.range_succ, List.flatMap_append, List.flatMap_singleton]
  rfl

/-- A stretch in which nothing falls before its end adds the ticks at its end. -/
theorem timetable_add (h : ℕ) : ∀ span : ℕ,
    (∀ t, h < t → t < h + (span + 1) → ticksAt poll send t = []) →
    timetable poll send start (h + (span + 1)) = timetable poll send start h ++
      (ticksAt poll send (h + (span + 1))).map (start + (h + (span + 1)), ·)
  | 0, _ => timetable_succ poll send start h
  | span + 1, hquiet => by
    have hbefore : ticksAt poll send (h + (span + 1)) = [] :=
      hquiet _ (by omega) (by omega)
    have hrest := timetable_add h span fun t hlow hhigh => hquiet t hlow (by omega)
    rw [hbefore, List.map_nil, List.append_nil] at hrest
    rw [← Nat.add_assoc h (span + 1) 1, timetable_succ, hrest]

theorem polls_ticksAt (t time : ℕ) :
    polls ((ticksAt poll send t).map (time, ·)) = if poll ∣ t then [(time, .poll)] else [] := by
  unfold ticksAt polls
  by_cases hpoll : poll ∣ t <;> by_cases hsend : send ∣ t <;> simp [hpoll, hsend]

/-- The last poll is the one at the greatest multiple of its period. -/
theorem getLast?_polls_timetable (h : ℕ) :
    (polls (timetable poll send start h)).getLast? =
      if h / poll = 0 then none else some (start + poll * (h / poll), .poll) := by
  induction h with
  | zero => simp [timetable, polls]
  | succ h ih =>
    rw [timetable_succ, polls_append, polls_ticksAt, Nat.succ_div]
    by_cases hdvd : poll ∣ h + 1
    · rw [if_pos hdvd, if_pos hdvd, List.getLast?_concat, if_neg (Nat.succ_ne_zero _),
        ← Nat.succ_div_of_dvd hdvd, Nat.mul_div_cancel' hdvd]
    · rw [if_neg hdvd, if_neg hdvd, List.append_nil, Nat.add_zero, ih]

end Timetable

/-! ### Timers that are served at their deadlines -/

namespace Timer

/-- The timer is due at a multiple of its period since a start, and that is the first one not
before the present, or the one behind the present. -/
def OnTime (t : Timer) (start now : ℕ) : Prop :=
  ∃ k, t.deadline = start + (k + 1) * t.period ∧ start + k * t.period ≤ now ∧ now ≤ t.deadline

variable {t : Timer} {start now : ℕ}

theorem onTime_start {period : Span} (h : Timer.start? now period = some t) : t.OnTime now now := by
  obtain ⟨hdeadline, hperiod, -⟩ := Timer.start?_eq_some.mp h
  refine ⟨0, ?_, ?_, ?_⟩
  · rw [Nat.zero_add, Nat.one_mul, hdeadline, hperiod]
  · rw [Nat.zero_mul, Nat.add_zero]
  · rw [hdeadline]
    exact Nat.le_add_right _ _

/-- A timer that has just started is not due. -/
theorem lt_deadline_start {period : Span} (h : Timer.start? now period = some t) :
    now < t.deadline := by
  obtain ⟨hdeadline, hperiod, -⟩ := Timer.start?_eq_some.mp h
  rw [hdeadline, ← hperiod]
  exact Nat.lt_add_of_pos_right t.period_pos

/-- Time may pass up to the deadline. -/
theorem OnTime.pass (h : t.OnTime start now) {later : ℕ} (hlater : now ≤ later)
    (hdeadline : later ≤ t.deadline) : t.OnTime start later := by
  obtain ⟨k, hk, hlow, -⟩ := h
  exact ⟨k, hk, hlow.trans hlater, hdeadline⟩

/-- Served at its deadline, a timer is due a period later. -/
theorem OnTime.deadline_served (h : t.OnTime start now) (hdue : t.isDue now = true) :
    t.deadline = now ∧ (t.served now).deadline = now + t.period := by
  obtain ⟨-, -, -, hhigh⟩ := h
  have hdue : t.deadline ≤ now := of_decide_eq_true hdue
  have heq : t.deadline = now := Nat.le_antisymm hdue hhigh
  refine ⟨heq, ?_⟩
  rw [served, heq, Nat.sub_self, if_neg (Nat.not_lt_zero _)]

theorem OnTime.served (h : t.OnTime start now) (hdue : t.isDue now = true) :
    (t.served now).OnTime start now := by
  obtain ⟨heq, hserved⟩ := h.deadline_served hdue
  obtain ⟨k, hk, -, -⟩ := h
  refine ⟨k + 1, ?_, ?_, ?_⟩
  · rw [hserved, ← heq, hk, Nat.succ_mul (k + 1)]
    exact Nat.add_assoc _ _ _
  · show start + (k + 1) * t.period ≤ now
    rw [← hk, heq]
  · rw [hserved]
    exact Nat.le_add_right _ _

/-- Behind the present, and as far as the deadline, a timer is due at the multiples of its
period. -/
theorem OnTime.isDue_iff (h : t.OnTime start now) {later : ℕ} (hlater : now < later)
    (hdeadline : later ≤ t.deadline) :
    t.isDue later = true ↔ t.period ∣ later - start := by
  obtain ⟨k, hk, hlow, -⟩ := h
  constructor
  · intro hdue
    have hdue : t.deadline ≤ later := of_decide_eq_true hdue
    have heq : later - start = (k + 1) * t.period := by omega
    exact heq ▸ Nat.dvd_mul_left _ _
  · rintro ⟨j, hj⟩
    refine decide_eq_true ?_
    have hbetween : t.period * k < t.period * j := by
      rw [← hj, Nat.mul_comm]
      omega
    have hsucc : k + 1 ≤ j := Nat.lt_of_mul_lt_mul_left hbetween
    calc t.deadline = start + t.period * (k + 1) := by rw [hk, Nat.mul_comm]
      _ ≤ start + t.period * j := Nat.add_le_add_left (Nat.mul_le_mul_left _ hsucc) _
      _ = later := by omega

end Timer

/-! ### What is due -/

/-- Snapshots that go with the polls are as far apart as they are. -/
theorem Settings.sendEvery_of_isCombined (s : Settings) (h : s.isCombined = true) :
    s.sendEvery = s.pollPeriod := by
  unfold isCombined at h
  unfold sendEvery
  cases hsend : s.sendPeriod with
  | none => rfl
  | some span =>
    rw [hsend] at h
    exact beq_iff_eq.mp h

namespace Loop

/-- The timers of a loop. -/
def timers (l : Loop) : List Timer := l.poll :: l.send.toList

/-- The ticks of a poll: the poll, and the send behind it where there is no timer for it. -/
def pollTicks (l : Loop) : List Tick := .poll :: if l.send.isNone then [.send] else []

/-- The ticks that are due. -/
def pending (l : Loop) (now : ℕ) : List Tick :=
  (if l.poll.isDue now then l.pollTicks else []) ++
    if l.send.any (·.isDue now) then [.send] else []

/-- The timers of a loop are served at their deadlines, and this is what they are for. -/
structure OnTime (l : Loop) (s : Settings) (start now : ℕ) : Prop extends l.IsFor s where
  timers : ∀ t ∈ l.timers, t.OnTime start now

variable {l l' : Loop} {s : Settings} {start now : ℕ}

theorem mem_timers_of_send {send : Timer} (h : l.send = some send) : send ∈ l.timers := by
  rw [timers, h]
  exact List.mem_cons_of_mem _ (List.mem_singleton_self send)

/-- The timers of a loop start with it. -/
theorem mem_timers_start (h : Loop.start? now s = some l) {t : Timer} (ht : t ∈ l.timers) :
    ∃ period : Span, Timer.start? now period = some t := by
  obtain ⟨hpoll, hsend⟩ := start?_eq_some.mp h
  rw [timers, List.mem_cons, Option.mem_toList] at ht
  rcases ht with rfl | ht
  · exact ⟨_, hpoll⟩
  · split at hsend
    · rw [hsend] at ht
      cases ht
    · exact ⟨_, hsend.1.trans ht⟩

theorem onTime_start (h : Loop.start? now s = some l) : l.OnTime s now now := by
  refine ⟨isFor_start h, fun t ht => ?_⟩
  obtain ⟨period, ht⟩ := mem_timers_start h ht
  exact Timer.onTime_start ht

theorem OnTime.pass (h : l.OnTime s start now) {later : ℕ} (hlater : now ≤ later)
    (hdeadline : ∀ t ∈ l.timers, later ≤ t.deadline) : l.OnTime s start later :=
  ⟨h.toIsFor, fun t ht => (h.timers t ht).pass hlater (hdeadline t ht)⟩

theorem pending_of_not_due (hpoll : l.poll.isDue now = false)
    (hsend : ∀ send, l.send = some send → send.isDue now = false) : l.pending now = [] := by
  rw [pending, hpoll]
  cases h : l.send with
  | none => rfl
  | some send =>
    rw [Option.any_some, hsend send h]
    rfl

/-- What is due stays due when the loop begins with a job, but for the ticks of the job. -/
theorem OnTime.next (h : l.OnTime s start now) {job : Job}
    (hnext : l.next? now = some (job, l')) :
    l'.OnTime s start now ∧ l'.poll.isDue now = false ∧
      l.pending now = (match job with
        | .poll => l'.pollTicks
        | .send => [.send]) ++ l'.pending now := by
  have notDue : ∀ t ∈ l.timers, t.isDue now = true → (t.served now).isDue now = false := by
    intro t ht hdue
    have hserved := ((h.timers t ht).deadline_served hdue).2
    have hpos := t.period_pos
    exact decide_eq_false (by omega)
  have hfor := h.toIsFor.next hnext
  rcases next?_eq_some hnext with ⟨rfl, hpoll, rfl⟩ | ⟨rfl, hpoll, send, hsend, hdue, rfl⟩
  · have hmem : l.poll ∈ l.timers := List.mem_cons_self
    refine ⟨⟨hfor, ?_⟩, notDue _ hmem hpoll, ?_⟩
    · rintro t (_ | ⟨_, ht⟩)
      · exact (h.timers _ hmem).served hpoll
      · exact h.timers t (List.mem_cons_of_mem _ ht)
    · rw [pending, pending, hpoll, notDue _ hmem hpoll]
      rfl
  · have hmem : send ∈ l.timers := mem_timers_of_send hsend
    refine ⟨⟨hfor, ?_⟩, hpoll, ?_⟩
    · rintro t (_ | ⟨_, _ | ⟨_, ⟨⟩⟩⟩)
      · exact h.timers _ List.mem_cons_self
      · exact (h.timers _ hmem).served hdue
    · rw [pending, pending, hsend, Option.any_some, Option.any_some, hpoll, hdue, notDue _ hmem hdue]
      rfl

/-- Nothing is due before the deadlines. -/
theorem pending_of_lt (h : ∀ t ∈ l.timers, now < t.deadline) : l.pending now = [] :=
  pending_of_not_due (decide_eq_false (Nat.not_le.mpr (h _ List.mem_cons_self)))
    fun send hsend => decide_eq_false (Nat.not_le.mpr (h send (mem_timers_of_send hsend)))

theorem next?_of_lt (h : ∀ t ∈ l.timers, now < t.deadline) : l.next? now = none := by
  cases hnext : l.next? now with
  | none => rfl
  | some next =>
    exfalso
    rcases next?_eq_some hnext with ⟨-, hdue, -⟩ | ⟨-, -, send, hsend, hdue, -⟩
    · exact Nat.not_le_of_lt (h _ List.mem_cons_self) (of_decide_eq_true hdue)
    · exact Nat.not_le_of_lt (h send (mem_timers_of_send hsend)) (of_decide_eq_true hdue)

theorem lt_of_not_due (h : l.next? now = none) : ∀ t ∈ l.timers, now < t.deadline := by
  obtain ⟨hpoll, hsend⟩ := next?_eq_none h
  intro t ht
  rw [timers, List.mem_cons, Option.mem_toList] at ht
  rcases ht with rfl | ht
  · exact Nat.lt_of_not_le (of_decide_eq_false hpoll)
  · exact Nat.lt_of_not_le (of_decide_eq_false (hsend t ht))

/-- What is due behind the present is what the timetable has there. -/
theorem OnTime.pending_eq (h : l.OnTime s start now) {later : ℕ} (hlater : now < later)
    (hdeadline : ∀ t ∈ l.timers, later ≤ t.deadline) :
    l.pending later = ticksAt s.pollPeriod.nanos s.sendEvery.nanos (later - start) := by
  have due : ∀ t ∈ l.timers, t.isDue later = true ↔ t.period ∣ later - start := fun t ht =>
    (h.timers t ht).isDue_iff hlater (hdeadline t ht)
  have hpoll := due l.poll List.mem_cons_self
  rw [h.poll] at hpoll
  rw [pending, ticksAt]
  cases hsend : l.send with
  | none =>
    have hcombined : s.isCombined = true := h.combined.mp hsend
    have hevery : s.sendEvery = s.pollPeriod := s.sendEvery_of_isCombined hcombined
    rw [hevery, pollTicks, hsend]
    by_cases hdvd : s.pollPeriod.nanos ∣ later - start
    · rw [if_pos (hpoll.mpr hdvd), if_pos hdvd, if_pos hdvd]
      rfl
    · rw [if_neg (fun hdue => hdvd (hpoll.mp hdue)), if_neg hdvd, if_neg hdvd]
      rfl
  | some send =>
    have hdue := due send (mem_timers_of_send hsend)
    rw [h.send send hsend] at hdue
    rw [Option.any_some, pollTicks, hsend]
    simp only [hpoll, hdue, Option.isNone_some, Bool.false_eq_true, ↓reduceIte]

end Loop

/-- The ticks that are due: what is left of the tick at which the loop is, and those of its
timers. -/
def Phase.pending (now : ℕ) : Phase → List Tick
  | .waiting l => l.pending now
  | .polling l _ => l.pollTicks ++ l.pending now
  | .sending l _ => .send :: l.pending now
  | .unstarted | .ended => []

namespace Runner

/-! ### Runs that are served at their deadlines -/

/-- Time goes no further than to the next deadline, and stands still during a tick. -/
def keepsTime (r : Runner) : Action → Bool
  | .pass span _ =>
    match r.phase with
    | .waiting l => l.timers.all fun t => r.now + span.nanos ≤ t.deadline
    | .polling _ _ | .sending _ _ => span.nanos == 0
    | .unstarted | .ended => true
  | _ => true

/-- Every action of a run keeps the time. -/
def isPunctual (r : Runner) : List Action → Bool
  | [] => true
  | x :: xs => r.keepsTime x && (r.step x).1.isPunctual xs

/-- The loop waits, and nothing is due. -/
def IsIdle (r : Runner) : Prop := ∃ l, r.phase = .waiting l ∧ l.next? r.now = none

instance : DecidablePred IsIdle := fun r =>
  match h : r.phase with
  | .waiting l => decidable_of_iff (l.next? r.now = none)
      ⟨fun hnext => ⟨l, h, hnext⟩, fun ⟨_, h', hnext⟩ => by cases h.symm.trans h'; exact hnext⟩
  | .unstarted | .polling _ _ | .sending _ _ | .ended =>
    isFalse fun ⟨_, h', _⟩ => by cases h.symm.trans h'

/-- A run that has done these ticks keeps the timetable of the settings since a start. -/
structure InTime (s : Settings) (start : ℕ) (done : List (ℕ × Tick)) (r : Runner) : Prop where
  settings : r.monitor.settings = s
  started : r.phase ≠ .unstarted
  le : start ≤ r.now
  onTime : ∀ l, r.phase.loop? = some l → l.OnTime s start r.now
  /-- At a tick the timer of the next poll is still to come. -/
  busy : ∀ l, r.phase.loop? = some l → r.phase = .waiting l ∨ l.poll.isDue r.now = false
  /-- What is done and what is due make the timetable. -/
  ticks : ∀ l, r.phase.loop? = some l → done ++ (r.phase.pending r.now).map (r.now, ·) =
    timetable s.pollPeriod.nanos s.sendEvery.nanos start (r.now - start)

section InTime

variable {s : Settings} {start : ℕ} {done : List (ℕ × Tick)} {r : Runner}

/-- What keeps the phase and the clock keeps the time. -/
theorem InTime.congr (h : InTime s start done r) {r' : Runner} (hphase : r'.phase = r.phase)
    (hnow : r'.now = r.now) (hsettings : r'.monitor.settings = r.monitor.settings) :
    InTime s start done r' := by
  obtain ⟨hs, hstarted, hle, honTime, hbusy, hticks⟩ := h
  rw [← hphase] at hstarted honTime hbusy hticks
  rw [← hnow] at hle honTime hbusy hticks
  exact ⟨hsettings.trans hs, hstarted, hle, honTime, hbusy, hticks⟩

/-- The loop has ended, and keeps no time any more. -/
theorem InTime.stopped (h : InTime s start done r) : InTime s start done r.stopped :=
  ⟨h.settings, nofun, h.le, nofun, nofun, nofun⟩

/-- The timetable goes on as time passes to the next deadline or to a time before it. -/
theorem timetable_pass {l : Loop} (honTime : l.OnTime s start r.now) (hle : start ≤ r.now)
    {span : ℕ} (hspan : span ≠ 0) (hdeadline : ∀ t ∈ l.timers, r.now + span ≤ t.deadline) :
    timetable s.pollPeriod.nanos s.sendEvery.nanos start (r.now + span - start) =
      timetable s.pollPeriod.nanos s.sendEvery.nanos start (r.now - start) ++
        (l.pending (r.now + span)).map (r.now + span, ·) := by
  obtain ⟨n, rfl⟩ := Nat.exists_eq_succ_of_ne_zero hspan
  have hquiet : ∀ t, r.now - start < t → t < r.now - start + (n + 1) →
      ticksAt s.pollPeriod.nanos s.sendEvery.nanos t = [] := by
    intro t hlow hhigh
    have hpending := honTime.pending_eq (show r.now < start + t by omega) fun timer htimer => by
      have := hdeadline timer htimer
      omega
    rw [Nat.add_sub_cancel_left] at hpending
    rw [← hpending]
    refine Loop.pending_of_lt fun timer htimer => ?_
    have := hdeadline timer htimer
    omega
  have hadd := timetable_add s.pollPeriod.nanos s.sendEvery.nanos start (r.now - start) n hquiet
  have hlater : r.now - start + (n + 1) = r.now + (n + 1) - start := by omega
  have htime : start + (r.now + (n + 1) - start) = r.now + (n + 1) := by omega
  rw [hlater, htime] at hadd
  rw [hadd, honTime.pending_eq (Nat.lt_add_of_pos_right n.succ_pos) hdeadline]

/-- Time passes. -/
theorem InTime.pass (h : InTime s start done r) {span : Span} {wall : Timestamp}
    (hkeeps : r.keepsTime (.pass span wall) = true) :
    InTime s start done { r with now := r.now + span.nanos, wall } := by
  by_cases hspan : span.nanos = 0
  · refine h.congr rfl ?_ rfl
    rw [hspan]
    rfl
  unfold keepsTime at hkeeps
  cases hphase : r.phase with
  | waiting l =>
    have hloop : r.phase.loop? = some l := by rw [hphase]; rfl
    have honTime := h.onTime l hloop
    have hdeadline : ∀ t ∈ l.timers, r.now + span.nanos ≤ t.deadline := by
      rw [hphase] at hkeeps
      exact fun t ht => of_decide_eq_true (List.all_eq_true.mp hkeeps t ht)
    have hdone : done =
        timetable s.pollPeriod.nanos s.sendEvery.nanos start (r.now - start) := by
      have hnone : l.pending r.now = [] := Loop.pending_of_lt fun t ht => by
        have := hdeadline t ht
        omega
      rw [← h.ticks l hloop, hphase, Phase.pending, hnone, List.map_nil, List.append_nil]
    have hlater : start ≤ r.now + span.nanos := h.le.trans (Nat.le_add_right _ _)
    refine ⟨h.settings, by simp, hlater, ?_, ?_, ?_⟩
    · rintro _ ⟨⟩
      exact honTime.pass (Nat.le_add_right _ _) hdeadline
    · rintro _ ⟨⟩
      exact Or.inl rfl
    · rintro _ ⟨⟩
      rw [hdone]
      exact (timetable_pass honTime h.le hspan hdeadline).symm
  | polling l began =>
    rw [hphase] at hkeeps
    exact absurd (beq_iff_eq.mp hkeeps) hspan
  | sending l began =>
    rw [hphase] at hkeeps
    exact absurd (beq_iff_eq.mp hkeeps) hspan
  | unstarted => exact absurd hphase h.started
  | ended => exact ⟨h.settings, nofun, h.le.trans (Nat.le_add_right _ _), nofun, nofun, nofun⟩

/-- The loop takes its turn. -/
theorem InTime.turn (h : InTime s start done r) : InTime s start done r.turn.1 := by
  rcases r.turn_cases with ⟨hphase, -⟩ | ⟨_, -, -, -, he⟩ |
    ⟨l, job, l', hphase, -, hnext, -, he⟩ | ⟨-, -, -, he⟩
  · exact absurd hphase h.started
  · rw [he]
    exact h.stopped
  · have hloop : r.phase.loop? = some l := by rw [hphase]; rfl
    obtain ⟨honTime, hnotDue, hpending⟩ := (h.onTime l hloop).next hnext
    have hticks := h.ticks l hloop
    rw [hphase, Phase.pending, hpending] at hticks
    rw [he]
    cases job with
    | poll =>
      refine ⟨h.settings, by simp, h.le, ?_, ?_, ?_⟩
      · rintro _ ⟨⟩
        exact honTime
      · rintro _ ⟨⟩
        exact Or.inr hnotDue
      · rintro _ ⟨⟩
        exact hticks
    | send =>
      refine ⟨h.settings, by simp, h.le, ?_, ?_, ?_⟩
      · rintro _ ⟨⟩
        exact honTime
      · rintro _ ⟨⟩
        exact Or.inr hnotDue
      · rintro _ ⟨⟩
        exact hticks
  · rw [he]
    exact h

/-- A poll or a send ends. -/
theorem InTime.finish (h : InTime s start done r) (a : Answers) :
    InTime s start (done ++ r.ticksOf (.finish a)) (r.finish a).1 := by
  rcases r.finish_cases a with ⟨l, began, hphase, hbody, he⟩ | ⟨l, began, hphase, hbody, he⟩ |
    ⟨-, hbody, he⟩
  · -- a poll, and the send behind it begins where there is no timer for it
    have hloop : r.phase.loop? = some l := by rw [hphase]; rfl
    have honTime := h.onTime l hloop
    have hbusy := (h.busy l hloop).resolve_left (by rw [hphase]; simp)
    have hticks := h.ticks l hloop
    rw [hphase, Phase.pending, Loop.pollTicks] at hticks
    have hdone : r.ticksOf (.finish a) = [(r.now, .poll)] := by rw [ticksOf, hbody]; rfl
    rw [he, hdone, h.settings]
    cases hsend : l.send with
    | none =>
      rw [if_pos (honTime.combined.mp hsend)]
      refine ⟨h.settings, by simp, h.le, ?_, ?_, ?_⟩
      · rintro _ ⟨⟩
        exact honTime
      · rintro _ ⟨⟩
        exact Or.inr hbusy
      · rintro _ ⟨⟩
        rw [hsend] at hticks
        rw [List.append_assoc]
        exact hticks
    | some send =>
      have hseparate : ¬ s.isCombined = true := fun hcombined => by
        cases hsend.symm.trans (honTime.combined.mpr hcombined)
      rw [if_neg hseparate]
      refine ⟨h.settings, by simp, h.le, ?_, ?_, ?_⟩
      · rintro _ ⟨⟩
        exact honTime
      · rintro _ ⟨⟩
        exact Or.inl rfl
      · rintro _ ⟨⟩
        rw [hsend] at hticks
        rw [List.append_assoc]
        exact hticks
  · -- a send
    have hloop : r.phase.loop? = some l := by rw [hphase]; rfl
    have hticks := h.ticks l hloop
    rw [hphase, Phase.pending, List.map_cons] at hticks
    have hdone : r.ticksOf (.finish a) = [(r.now, .send)] := by rw [ticksOf, hbody]; rfl
    rw [he, hdone]
    refine ⟨h.settings, by simp, h.le, ?_, ?_, ?_⟩
    · rintro _ ⟨⟩
      exact h.onTime l hloop
    · rintro _ ⟨⟩
      exact Or.inl rfl
    · rintro _ ⟨⟩
      rw [List.append_assoc]
      exact hticks
  · -- nothing was in flight
    have hdone : r.ticksOf (.finish a) = [] := by rw [ticksOf, hbody]; rfl
    rw [he, hdone, List.append_nil]
    exact h

/-- **Every action that keeps the time keeps the timetable.** -/
theorem InTime.step (h : InTime s start done r) {x : Action} (hkeeps : r.keepsTime x = true) :
    InTime s start (done ++ r.ticksOf x) (r.step x).1 := by
  cases x with
  | finish a => exact h.finish a
  | pass span wall =>
    rw [r.ticksOf_of_ne_finish (by simp), List.append_nil]
    exact h.pass hkeeps
  | turn =>
    rw [r.ticksOf_of_ne_finish (by simp), List.append_nil]
    exact h.turn
  | _ =>
    rw [r.ticksOf_of_ne_finish (by simp), List.append_nil]
    exact h.congr (r.phase_step (by simp) (by simp)) (r.now_step_of_ne_pass (by simp))
      (r.settings_step _)

/-- A punctual run keeps the timetable. -/
theorem InTime.after : ∀ {r : Runner} {done : List (ℕ × Tick)}, InTime s start done r →
    ∀ xs : List Action, r.isPunctual xs = true → InTime s start (done ++ r.ticks xs) (r.after xs)
  | r, done, h, [], _ => by
    rw [show r.ticks [] = [] from rfl, List.append_nil]
    exact h
  | r, done, h, x :: xs, hpunctual => by
    obtain ⟨hkeeps, hrest⟩ := (Bool.and_eq_true _ _).mp hpunctual
    rw [ticks_cons, ← List.append_assoc]
    exact (h.step hkeeps).after xs hrest

end InTime

/-! ### The beginning of a run -/

/-- Before its first turn the loop has not started, and does nothing. -/
theorem unstarted_after : ∀ {r : Runner} (xs : List Action), .turn ∉ xs → r.phase = .unstarted →
    (r.after xs).phase = .unstarted ∧ r.ticks xs = []
  | _, [], _, hphase => ⟨hphase, rfl⟩
  | r, x :: xs, hturn, hphase => by
    rw [List.mem_cons, not_or] at hturn
    have hsame : (r.step x).1.phase = .unstarted ∧ r.ticksOf x = [] := by
      cases x with
      | turn => exact absurd rfl hturn.1
      | finish a =>
        rw [step, finish, ticksOf, body?, hphase]
        exact ⟨hphase, rfl⟩
      | _ => exact ⟨(r.phase_step (by simp) (by simp)).trans hphase,
          r.ticksOf_of_ne_finish (by simp)⟩
    obtain ⟨hafter, hticks⟩ := unstarted_after xs hturn.2 hsame.1
    rw [ticks_cons, hsame.2, hticks]
    exact ⟨hafter, rfl⟩

/-- A loop is in time when it starts. -/
theorem inTime_start {r : Runner} {l : Loop} (hphase : r.phase = .unstarted)
    (hstart : Loop.start? r.now r.monitor.settings = some l) :
    (r.step .turn).1 = { r with phase := .waiting l } ∧
      InTime r.monitor.settings r.now [] (r.step .turn).1 := by
  have hturn : (r.step .turn).1 = { r with phase := .waiting l } := by
    rw [step, turn, hphase]
    dsimp only
    rw [start, hstart]
  rw [hturn]
  refine ⟨rfl, rfl, by simp, Nat.le_refl _, ?_, ?_, ?_⟩
  · rintro _ ⟨⟩
    exact Loop.onTime_start hstart
  · rintro _ ⟨⟩
    exact Or.inl rfl
  · rintro _ ⟨⟩
    have hnone : l.pending r.now = [] := Loop.pending_of_lt fun t ht =>
      (Loop.mem_timers_start hstart ht).elim fun _ ht => Timer.lt_deadline_start ht
    rw [Phase.pending, hnone, Nat.sub_self]
    rfl

/-- **A loop begins** at its first turn, if its first deadlines are within reach: then it waits,
nothing is due, and no time has passed. -/
theorem begun_of_reaches {r : Runner} (hphase : r.phase = .unstarted)
    (hvalid : r.monitor.settings.validate = .ok ()) {early : List Action}
    (hearly : .turn ∉ early) (hreach : r.monitor.settings.Reaches (r.after early).now) :
    r.ticks (early ++ [.turn]) = [] ∧
      InTime r.monitor.settings (r.after early).now [] (r.after (early ++ [.turn])) ∧
      (r.after (early ++ [.turn])).IsIdle ∧
      (r.after (early ++ [.turn])).receipt? = (r.after early).receipt? ∧
      (r.after (early ++ [.turn])).now = (r.after early).now := by
  obtain ⟨l, hl⟩ := Loop.exists_start hvalid hreach
  obtain ⟨hunstarted, hticks⟩ := unstarted_after early hearly hphase
  have hsettings : (r.after early).monitor.settings = r.monitor.settings :=
    (r.sameMake_after early).settings
  obtain ⟨hturn, hinTime⟩ := inTime_start hunstarted (hsettings ▸ hl)
  rw [hsettings] at hinTime
  rw [after_concat]
  refine ⟨?_, hinTime, ?_, ?_, ?_⟩
  · rw [ticks_append, hticks, ticks_cons, ticksOf_of_ne_finish _ (by simp)]
    rfl
  · rw [hturn]
    exact ⟨l, rfl, Loop.next?_of_lt fun t ht =>
      (Loop.mem_timers_start hl ht).elim fun _ ht => Timer.lt_deadline_start ht⟩
  · rw [hturn]
    rfl
  · rw [hturn]

/-! ### Runs to a horizon -/

theorem isPunctual_append : ∀ (r : Runner) (xs ys : List Action),
    r.isPunctual (xs ++ ys) = (r.isPunctual xs && (r.after xs).isPunctual ys)
  | _, [], _ => rfl
  | r, x :: xs, ys => by
    rw [List.cons_append, isPunctual, isPunctual, isPunctual_append (r.step x).1 xs ys,
      Bool.and_assoc]
    rfl

/-- What takes no time keeps the time. -/
theorem isPunctual_of_ne_pass : ∀ (r : Runner) (xs : List Action),
    (∀ x ∈ xs, ∀ span wall, x ≠ .pass span wall) → r.isPunctual xs = true
  | _, [], _ => rfl
  | r, x :: xs, h => by
    have hx : r.keepsTime x = true := by
      cases x with
      | pass span wall => exact absurd rfl (h _ List.mem_cons_self span wall)
      | _ => rfl
    rw [isPunctual, hx,
      isPunctual_of_ne_pass (r.step x).1 xs fun y hy => h y (List.mem_cons_of_mem _ hy)]
    rfl

theorem ne_pass_of_mem_actionsOf {s : Settings} {a : Answers} {job : Job} {x : Action}
    (h : x ∈ actionsOf s a job) (span : Span) (wall : Timestamp) : x ≠ .pass span wall := by
  rintro rfl
  cases job with
  | send => simp [actionsOf] at h
  | poll =>
    rw [actionsOf] at h
    split at h <;> simp at h

/-- Time goes on by one nanosecond, and what is due then is done. -/
theorem exists_punctual_succ {r : Runner} (hidle : r.IsIdle) (hopen : r.receipt? = none)
    (a : Answers) (wall : Timestamp) : ∃ xs, r.isPunctual xs = true ∧ (r.after xs).IsIdle ∧
      (r.after xs).receipt? = none ∧ (r.after xs).now = r.now + 1 := by
  obtain ⟨l, hphase, hnext⟩ := hidle
  let later : Runner := { r with now := r.now + 1, wall }
  obtain ⟨hafter, -, hnone⟩ := after_due a l (r.now + 1) later hphase hopen rfl
  refine ⟨.pass ⟨1⟩ wall :: (l.due (r.now + 1)).1.flatMap (actionsOf r.monitor.settings a),
    ?_, ?_⟩
  · have hkeeps : r.keepsTime (.pass ⟨1⟩ wall) = true := by
      rw [keepsTime, hphase]
      exact List.all_eq_true.mpr fun t ht => decide_eq_true (Loop.lt_of_not_due hnext t ht)
    rw [isPunctual, hkeeps, isPunctual_of_ne_pass]
    · rfl
    · intro x hx
      obtain ⟨job, -, hx⟩ := List.mem_flatMap.mp hx
      exact ne_pass_of_mem_actionsOf hx
  · rw [after, step]
    rw [show later.monitor.settings = r.monitor.settings from rfl] at hafter
    rw [show ({ r with now := r.now + 1, wall } : Runner) = later from rfl, hafter]
    exact ⟨⟨_, rfl, hnone⟩, hopen, rfl⟩

/-- Every horizon is that of a run served at its deadlines. -/
theorem exists_punctual {r : Runner} (hidle : r.IsIdle) (hopen : r.receipt? = none)
    (a : Answers) (wall : Timestamp) (horizon : ℕ) : ∃ xs, r.isPunctual xs = true ∧
      (r.after xs).IsIdle ∧ (r.after xs).receipt? = none ∧
        (r.after xs).now = r.now + horizon := by
  induction horizon with
  | zero => exact ⟨[], rfl, hidle, hopen, rfl⟩
  | succ horizon ih =>
    obtain ⟨xs, hpunctual, hidle', hopen', hnow⟩ := ih
    obtain ⟨ys, hpunctual', hidle'', hopen'', hnow'⟩ := exists_punctual_succ hidle' hopen' a wall
    refine ⟨xs ++ ys, ?_, ?_⟩
    · rw [isPunctual_append, hpunctual, hpunctual']
      rfl
    · rw [after_append, hnow', hnow]
      exact ⟨hidle'', hopen'', rfl⟩

/-! ### The timetable of a run -/

section Table

variable {s : Settings} {start : ℕ} {done : List (ℕ × Tick)} {r : Runner}

/-- Where nothing is due, what is done makes the timetable. -/
theorem InTime.ticks_of_idle (h : InTime s start done r) (hidle : r.IsIdle) :
    done = timetable s.pollPeriod.nanos s.sendEvery.nanos start (r.now - start) := by
  obtain ⟨l, hphase, hnext⟩ := hidle
  have hnone : l.pending r.now = [] := Loop.pending_of_lt (Loop.lt_of_not_due hnext)
  have hticks := h.ticks l (by rw [hphase]; rfl)
  rw [hphase, Phase.pending, hnone, List.map_nil, List.append_nil] at hticks
  exact hticks

/-- At a send the polls that are done are those of the timetable. -/
theorem InTime.polls_of_sending (h : InTime s start done r) {l : Loop} {began : Timestamp}
    (hphase : r.phase = .sending l began) :
    polls done =
      polls (timetable s.pollPeriod.nanos s.sendEvery.nanos start (r.now - start)) := by
  have hloop : r.phase.loop? = some l := by rw [hphase]; rfl
  have hbusy : l.poll.isDue r.now = false := (h.busy l hloop).resolve_left (by rw [hphase]; simp)
  have hnone : polls ((r.phase.pending r.now).map (r.now, ·)) = [] := by
    rw [hphase, Phase.pending, Loop.pending, hbusy, if_neg Bool.false_ne_true]
    split <;> rfl
  rw [← h.ticks l hloop, polls_append, hnone, List.append_nil]

/-- At a send the last poll is the one at the greatest multiple of the poll period. -/
theorem InTime.lastPoll {r₀ : Runner} {xs : List Action}
    (h : InTime s start (r₀.ticks xs) (r₀.after xs)) {l : Loop} {began : Timestamp}
    (hphase : (r₀.after xs).phase = .sending l began) (hperiod : 0 < s.pollPeriod.nanos) :
    let passed := (r₀.after xs).now - start
    let period := s.pollPeriod.nanos
    ∃ upTo since, r₀.timed xs = upTo ++ since ∧ Quiet (since.map (·.2)) ∧
      (passed < period ∧ upTo = [] ∨ period ≤ passed ∧ ∃ before a now,
        upTo = before ++ [(start + period * (passed / period), .poll a now)]) := by
  intro passed period
  have hlast : (polls (r₀.ticks xs)).getLast? =
      if passed / period = 0 then none else some (start + period * (passed / period), .poll) := by
    rw [h.polls_of_sending hphase]
    exact getLast?_polls_timetable _ _ _ _
  obtain ⟨upTo, since, hsplit, hquiet, hcase⟩ := exists_lastPoll (r₀.timed xs)
  rw [show ticksAmong (r₀.timed xs) = r₀.ticks xs from rfl] at hcase
  refine ⟨upTo, since, hsplit, hquiet, ?_⟩
  by_cases hbefore : passed / period = 0
  · rw [if_pos hbefore] at hlast
    have hlt : passed < period := (Nat.div_eq_zero_iff_lt hperiod).mp hbefore
    rcases hcase with ⟨hnil, -⟩ | ⟨_, t, _, _, -, hsome⟩
    · exact Or.inl ⟨hlt, hnil⟩
    · rw [hlast] at hsome
      cases hsome
  · rw [if_neg hbefore] at hlast
    have hle : period ≤ passed := Nat.le_of_not_lt fun hlt => hbefore (Nat.div_eq_of_lt hlt)
    rcases hcase with ⟨-, hnone⟩ | ⟨before, t, a, now, hupTo, hsome⟩
    · rw [hnone] at hlast
      cases hlast
    · rw [hlast] at hsome
      cases hsome
      exact Or.inr ⟨hle, before, a, now, hupTo⟩

end Table

/-- **The timetable of a loop** whose first deadlines an instant can hold. However the periods
relate, a run of a loop that is served at its deadlines has done the ticks of the timetable
whenever nothing is due, and every horizon is that of such a run. What is sent at any time is
what the poll at the greatest multiple of the poll period has left, and what the monitor was
built with before the first poll. -/
theorem timetable_of_run {b : Blueprint} {a₀ : Answers} {m : Monitor}
    (hm : (Monitor.build b a₀).result = .ok m) (wall : Timestamp) {early : List Action}
    (hearly : .turn ∉ early)
    (hreach : m.settings.Reaches ((ofMonitor m wall).after early).now) :
    let r₀ := ofMonitor m wall
    let start := (r₀.after early).now
    let period := m.settings.pollPeriod.nanos
    let begun := early ++ [.turn]
    (∀ rest, (r₀.after begun).isPunctual rest = true →
      let xs := begun ++ rest
      let r := r₀.after xs
      let passed := r.now - start
      (r.IsIdle → r₀.ticks xs = timetable period m.settings.sendEvery.nanos start passed) ∧
        ∀ l began, r.phase = .sending l began →
          (∀ a, (r.step (.finish a)).2 =
            [.delivered (r.monitor.snapshot began), .counted .snapshotsSent]) ∧
          ∃ upTo since, r₀.timed xs = upTo ++ since ∧ Quiet (since.map (·.2)) ∧
            (passed < period ∧ upTo = [] ∨ period ≤ passed ∧ ∃ before a now,
              upTo = before ++ [(start + period * (passed / period), .poll a now)]) ∧
            Monitor.Carries (m.after (upTo.map (·.2))) (since.map (·.2)) r.monitor.instances.ids
              (r.monitor.snapshot began)) ∧
      m.system.reading = Reading.zero (m.capacity.partitions.map (·.name)) ∧
      m.instances.ids = [] ∧
      ((r₀.after early).receipt? = none → ∀ horizon : ℕ, ∃ rest,
        (r₀.after begun).isPunctual rest = true ∧ (r₀.after (begun ++ rest)).IsIdle ∧
          (r₀.after (begun ++ rest)).now = start + horizon) := by
  intro r₀ start period begun
  obtain ⟨info, capacity, rules, processors, hvalid, -, -, -, -, hmake⟩ := Monitor.build_ok hm
  have hsettings : m.settings = b.settings := by rw [hmake]; rfl
  have hvalid' : m.settings.validate = .ok () := hsettings ▸ hvalid
  have hperiod : 0 < period := by
    obtain ⟨l, hl⟩ := Loop.exists_start hvalid' hreach
    rw [show period = l.poll.period from (Loop.isFor_start hl).poll.symm]
    exact l.poll.period_pos
  obtain ⟨hbegunTicks, hbegunInTime, hidle, hreceipt, hnow⟩ :=
    begun_of_reaches (r := r₀) rfl hvalid' hearly hreach
  refine ⟨fun rest hpunctual => ?_, ?_, ?_, fun hopen horizon => ?_⟩
  · intro xs r passed
    have hafter : InTime m.settings start (r₀.ticks xs) r := by
      have hrest := hbegunInTime.after rest hpunctual
      rw [← hbegunTicks, ← ticks_append, ← after_append] at hrest
      exact hrest
    refine ⟨hafter.ticks_of_idle, fun l' began hphase => ⟨fun a => ?_, ?_⟩⟩
    · exact congrArg Prod.snd (finish_of_sending hphase a)
    · obtain ⟨upTo, since, hsplit, hquiet, hcase⟩ := hafter.lastPoll hphase hperiod
      refine ⟨upTo, since, hsplit, hquiet, hcase, ?_⟩
      have hmonitor : r.monitor = (m.after (upTo.map (·.2))).after (since.map (·.2)) := by
        rw [monitor_after r₀ xs, bodies, hsplit, List.map_append, Monitor.after_append]
        rfl
      rw [hmonitor]
      exact Monitor.carries_of_quiet _ hquiet began
  · rw [hmake]
    rfl
  · rw [hmake]
    rfl
  · have hopen' : (r₀.after begun).receipt? = none := hreceipt.trans hopen
    obtain ⟨rest, hpunctual, hidle', -, hlater⟩ := exists_punctual hidle hopen' a₀ wall horizon
    rw [hnow] at hlater
    rw [← after_append] at hidle' hlater
    exact ⟨rest, hpunctual, hidle', hlater⟩

/-- The small node, with a poll every two nanoseconds and a snapshot every three. -/
def swiftNode : Blueprint :=
  { Monitor.smallNode with
    settings := { Monitor.smallNode.settings with pollPeriod := ⟨2⟩, sendPeriod := some ⟨3⟩ } }

def swiftMonitor : Monitor := { Monitor.smallMonitor with settings := swiftNode.settings }

theorem build_swiftNode :
    (Monitor.build swiftNode (Monitor.underLoad 10 none).answers).result = .ok swiftMonitor := rfl

/-- Time goes on to the next deadline, and one job is done there. -/
def untilNext (nanos : ℕ) : List Action :=
  [.pass ⟨nanos⟩ ⟨nanos, false⟩, .turn, .finish (Monitor.underLoad 10 none).answers]

/-- The snapshot at three carries what the poll at two left. -/
theorem timetable_of_run_swiftNode :
    let r₀ := ofMonitor swiftMonitor .epoch
    let early := [.call (.start "a" Monitor.worker)]
    let begun := early ++ [.turn]
    let rest := untilNext 2 ++ untilNext 1 ++ untilNext 1 ++ untilNext 2 ++ untilNext 0
    let toSend := untilNext 2 ++ [.pass ⟨1⟩ ⟨1, false⟩, .turn]
    let monitor := (r₀.after (begun ++ toSend)).monitor
    swiftMonitor.settings.Reaches (r₀.after early).now ∧
    (r₀.after begun).isPunctual rest = true ∧ (r₀.after (begun ++ rest)).IsIdle ∧
      r₀.ticks (begun ++ rest) =
        [(2, .poll), (3, .send), (4, .poll), (6, .poll), (6, .send)] ∧
      ∃ upTo since before a now, r₀.timed (begun ++ toSend) = upTo ++ since ∧
        upTo = before ++ [(2, .poll a now)] ∧
        Monitor.Carries (swiftMonitor.after (upTo.map (·.2))) (since.map (·.2))
          monitor.instances.ids (monitor.snapshot ⟨1, false⟩) := by
  intro r₀ early begun rest toSend monitor
  have hearly : .turn ∉ early := by simp [early]
  have hreach : swiftMonitor.settings.Reaches (r₀.after early).now := by decide +kernel
  have hlaw := timetable_of_run build_swiftNode .epoch hearly hreach
  have hpunctual : (r₀.after begun).isPunctual rest = true := by decide +kernel
  have hidle : (r₀.after (begun ++ rest)).IsIdle := by decide +kernel
  have hticks := (hlaw.1 rest hpunctual).1 hidle
  have hpunctual' : (r₀.after begun).isPunctual toSend = true := by decide +kernel
  obtain ⟨-, upTo, since, hsplit, -, hcase, hcarries⟩ :=
    (hlaw.1 toSend hpunctual').2 ⟨⟨4, 2, by decide⟩, some ⟨6, 3, by decide⟩⟩ ⟨1, false⟩ rfl
  refine ⟨hreach, hpunctual, hidle, hticks.trans (by decide +kernel), ?_⟩
  rcases hcase with ⟨hlt, -⟩ | ⟨-, before, a, now, hupTo⟩
  · exact absurd hlt (by decide +kernel)
  · have htime : (r₀.after early).now + swiftMonitor.settings.pollPeriod.nanos *
        (((r₀.after (begun ++ toSend)).now - (r₀.after early).now) /
          swiftMonitor.settings.pollPeriod.nanos) = 2 := by decide +kernel
    exact ⟨upTo, since, before, a, now, hsplit, htime ▸ hupTo, hcarries⟩

/-! ### Deadlines out of reach -/

/-- A loop that has a deadline out of reach breaks off, and never ticks. -/
theorem ticks_of_unreachable {r : Runner} (hphase : r.phase = .unstarted)
    (h : Loop.start? r.now r.monitor.settings = none) (xs : List Action) :
    r.ticks (.turn :: xs) = [] := by
  have hended : (r.step .turn).1.phase = .ended := by
    rw [step, turn, hphase]
    dsimp only
    rw [start, h]
    rfl
  rw [ticks_cons, r.ticksOf_of_ne_finish (by simp), List.nil_append]
  exact ticks_of_ended _ xs hended

/-- The swift node, with the longest span that there is between snapshots. -/
def endlessNode : Blueprint :=
  { swiftNode with
    settings := { swiftNode.settings with
      sendPeriod := some ⟨0x10000000000000000 * 1000000000 - 1⟩ } }

def endlessMonitor : Monitor := { swiftMonitor with settings := endlessNode.settings }

/-- The settings are valid, but no instant can hold the time of the first snapshot, and so the
loop does not poll either. -/
theorem not_timetable_of_endlessNode :
    let r₀ := ofMonitor endlessMonitor .epoch
    let s := endlessMonitor.settings
    (Monitor.build endlessNode (Monitor.underLoad 10 none).answers).result = .ok endlessMonitor ∧
      s.validate = .ok () ∧ ¬ s.Reaches r₀.now ∧ (∀ xs, r₀.ticks (.turn :: xs) = []) ∧
      timetable s.pollPeriod.nanos s.sendEvery.nanos r₀.now 2 = [(2, .poll)] :=
  ⟨rfl, rfl, by decide +kernel, ticks_of_unreachable rfl (by decide +kernel), by decide +kernel⟩

end Runner

end QuotaWatch
