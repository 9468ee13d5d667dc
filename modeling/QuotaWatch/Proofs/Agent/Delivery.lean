/-
# Polls ahead of a snapshot that is due

Where both timers are due the poll goes first. Served, its timer is put off by a
period, so a poll that is done by then lets the snapshot go out behind it. A poll
that takes a period or longer finds its own timer due again at its end and goes
first once more: how many polls stay ahead of the snapshot is then bounded by
nothing (`Runner.polls_ahead_of_send`).

Key definitions: `Runner.SendDue`, `Runner.pollsAhead`.
Key theorems: `Timer.served_le`, `Timer.le_served`, `Runner.pollsAhead_apart`,
`Runner.starts_of_slow`, `Runner.polls_ahead_of_send`, `Runner.not_one_poll_ahead`.
-/
import Mathlib.Data.List.Chain
import QuotaWatch.Proofs.Agent.Runner

namespace QuotaWatch

open Time

namespace Timer

/-- A timer that is due is put off by a period at most. -/
theorem served_le {t : Timer} {now : ℕ} (hdue : t.deadline ≤ now) :
    (t.served now).deadline ≤ now + t.period := by
  simp only [served]
  split <;> omega

/-- A timer that is served is put off by a period at least, but for the tolerance. -/
theorem le_served (t : Timer) (now : ℕ) :
    now + t.period ≤ (t.served now).deadline + tolerance.nanos := by
  simp only [served]
  split <;> omega

end Timer

namespace Runner

/-- The polls that the loop begins with before its next snapshot. -/
def pollsAhead (r : Runner) (xs : List Action) : List (ℕ × Job) :=
  (r.starts xs).takeWhile fun start => start.2 == .poll

/-- A snapshot is due, unless the loop has ended. -/
def SendDue (r : Runner) (period : ℕ) : Prop :=
  r.phase ≠ .unstarted ∧ ∀ loop, r.phase.loop? = some loop →
    loop.poll.period = period ∧ ∃ send, loop.send = some send ∧ send.deadline ≤ r.now

variable {r : Runner} {period : ℕ}

/-- A snapshot stays due until the loop begins with a job. -/
theorem SendDue.step (h : r.SendDue period) {x : Action} (hx : x ≠ .turn) :
    (r.step x).1.SendDue period := by
  refine ⟨r.started_step x h.1, fun loop hloop => ?_⟩
  rw [r.loop?_step hx] at hloop
  obtain ⟨hperiod, send, hsend, hdue⟩ := h.2 loop hloop
  exact ⟨hperiod, send, hsend, hdue.trans (r.now_step x)⟩

theorem pollsAhead_of_none {x : Action} (h : r.job? x = none) (xs : List Action) :
    r.pollsAhead (x :: xs) = (r.step x).1.pollsAhead xs := by
  rw [pollsAhead, starts_cons, h]
  rfl

theorem pollsAhead_of_poll {x : Action} (h : r.job? x = some .poll) (xs : List Action) :
    r.pollsAhead (x :: xs) = (r.now, .poll) :: (r.step x).1.pollsAhead xs := by
  rw [pollsAhead, starts_cons, h]
  rfl

theorem pollsAhead_of_send {x : Action} (h : r.job? x = some .send) (xs : List Action) :
    r.pollsAhead (x :: xs) = [] := by
  rw [pollsAhead, starts_cons, h]
  rfl

/-- While a snapshot is due, the loop does not begin with a poll before the poll timer is due,
and the polls it begins with are a period apart, but for the tolerance. -/
theorem pollsAhead_apart : ∀ (r : Runner) (xs : List Action), r.SendDue period →
    (r.pollsAhead xs).IsChain
        (fun s s' => s.1 + period ≤ s'.1 + Timer.tolerance.nanos) ∧
      ∀ s ∈ (r.pollsAhead xs).head?, ∀ loop, r.phase.loop? = some loop →
        loop.poll.deadline ≤ s.1
  | _, [], _ => ⟨List.isChain_nil, fun s hs => absurd hs (Option.not_mem_none s)⟩
  | r, x :: xs, h => by
    by_cases hx : x = .turn
    · subst hx
      rcases r.turn_cases with ⟨hphase, -⟩ | ⟨_, -, -, hjob, he⟩ |
        ⟨loop, job, loop', hphase, -, hnext, hjob, he⟩ | ⟨-, -, hjob, he⟩
      · exact absurd hphase h.1
      · -- the loop ends
        have hnil : r.stopped.pollsAhead xs = [] := by
          rw [pollsAhead, starts_of_ended r.stopped xs rfl]
          rfl
        rw [pollsAhead_of_none hjob, step, he, hnil]
        exact ⟨List.isChain_nil, fun s hs => absurd hs (Option.not_mem_none s)⟩
      · have hloop : r.phase.loop? = some loop := by rw [hphase]; rfl
        obtain ⟨hperiod, send, hsend, hdue⟩ := h.2 loop hloop
        rcases Loop.next?_eq_some hnext with ⟨rfl, hpoll, hserved⟩ | ⟨rfl, -⟩
        · -- a poll goes first, and its timer is put off
          have hdue' : SendDue { r with phase := .polling loop' r.wall } period := by
            refine ⟨by simp, ?_⟩
            rintro _ ⟨⟩
            rw [hserved]
            exact ⟨hperiod, send, hsend, hdue⟩
          obtain ⟨hchain, hfirst⟩ := pollsAhead_apart _ xs hdue'
          rw [pollsAhead_of_poll hjob, step, he]
          refine ⟨hchain.cons fun s hs => ?_, ?_⟩
          · have hput := loop.poll.le_served r.now
            have hlater : loop'.poll.deadline ≤ s.1 := hfirst s hs loop' rfl
            rw [hserved] at hlater
            dsimp only at hlater ⊢
            omega
          · rintro s ⟨⟩ _ hloop'
            rw [hloop] at hloop'
            cases hloop'
            exact of_decide_eq_true hpoll
        · -- the snapshot goes out
          rw [pollsAhead_of_send hjob]
          exact ⟨List.isChain_nil, fun s hs => absurd hs (Option.not_mem_none s)⟩
      · -- the loop is at a tick
        rw [pollsAhead_of_none hjob, step, he]
        exact pollsAhead_apart r xs h
    · obtain ⟨hchain, hfirst⟩ := pollsAhead_apart (r.step x).1 xs (h.step hx)
      rw [pollsAhead_of_none (r.job?_of_ne_turn hx)]
      refine ⟨hchain, fun s hs loop hloop => hfirst s hs loop ?_⟩
      rw [r.loop?_step hx, hloop]

/-- Where jobs begin a period apart and the poll timer is due by the first of them, all of them
are polls. -/
theorem starts_of_slow : ∀ (r : Runner) (xs : List Action), r.phase ≠ .unstarted →
    (∀ loop, r.phase.loop? = some loop → loop.poll.period = period ∧
      ∀ s ∈ (r.starts xs).head?, loop.poll.deadline ≤ s.1) →
    (r.starts xs).IsChain (fun s s' => s.1 + period ≤ s'.1) → ∀ s ∈ r.starts xs, s.2 = .poll
  | _, [], _, _, _ => List.forall_mem_nil _
  | r, x :: xs, hstarted, hdue, hchain => by
    rw [starts_cons] at hdue hchain ⊢
    by_cases hx : x = .turn
    · subst hx
      rcases r.turn_cases with ⟨hphase, -⟩ | ⟨_, -, -, hjob, he⟩ |
        ⟨loop, job, loop', hphase, -, hnext, hjob, he⟩ | ⟨-, -, hjob, he⟩
      · exact absurd hphase hstarted
      · -- the loop ends
        rw [hjob, step, he, starts_of_ended r.stopped xs rfl]
        exact List.forall_mem_nil _
      · -- the poll timer is due, so the job is a poll and puts it off by a period at most
        rw [hjob, step, he] at hdue hchain
        rw [hjob, step, he]
        obtain ⟨hperiod, hfirst⟩ := hdue loop (by rw [hphase]; rfl)
        have hpoll : loop.poll.deadline ≤ r.now := hfirst _ rfl
        obtain ⟨rfl, rfl⟩ : job = .poll ∧ loop' = { loop with poll := loop.poll.served r.now } := by
          rw [Loop.next?_poll_first (decide_eq_true hpoll)] at hnext
          cases hnext
          exact ⟨rfl, rfl⟩
        obtain ⟨hnear, hchain'⟩ := List.isChain_cons.mp hchain
        have hrest := starts_of_slow _ xs (by simp) ?_ hchain'
        · rintro s (_ | ⟨_, hs⟩)
          · rfl
          · exact hrest s hs
        · rintro _ ⟨⟩
          refine ⟨hperiod, fun s hs => ?_⟩
          have hput : (loop.poll.served r.now).deadline ≤ r.now + loop.poll.period :=
            Timer.served_le hpoll
          have hnext' : r.now + period ≤ s.1 := hnear s hs
          rw [← hperiod] at hnext'
          exact hput.trans hnext'
      · -- the loop is at a tick, or nothing is due
        rw [hjob, step, he] at hdue hchain
        rw [hjob, step, he]
        exact starts_of_slow r xs hstarted hdue hchain
    · rw [r.job?_of_ne_turn hx] at hdue hchain ⊢
      refine starts_of_slow (r.step x).1 xs (r.started_step x hstarted) (fun loop hloop => ?_) hchain
      rw [r.loop?_step hx] at hloop
      exact hdue loop hloop

/-- **What goes ahead of a snapshot that is due.** Polls that the loop begins with before it
sends the snapshot follow on each other no sooner than a period less the tolerance. So there is
one at most where polls are done sooner. Where the poll timer is due too and every poll keeps
the loop for a period or longer, the snapshot is never sent. -/
theorem polls_ahead_of_send (m : Monitor) (wall : Timestamp) {before : List Action} {loop : Loop}
    {send : Timer} (hloop : ((ofMonitor m wall).after before).phase.loop? = some loop)
    (hsend : loop.send = some send)
    (hdue : send.deadline ≤ ((ofMonitor m wall).after before).now) (xs : List Action) :
    let r := (ofMonitor m wall).after before
    let period := m.settings.pollPeriod.nanos
    (r.pollsAhead xs).IsChain (fun s s' => s.1 + period ≤ s'.1 + Timer.tolerance.nanos) ∧
      ((r.pollsAhead xs).IsChain (fun s s' => s'.1 + Timer.tolerance.nanos < s.1 + period) →
        (r.pollsAhead xs).length ≤ 1) ∧
      (loop.poll.deadline ≤ r.now →
        (r.starts xs).IsChain (fun s s' => s.1 + period ≤ s'.1) →
        ∀ s ∈ r.starts xs, s.2 = .poll) := by
  intro r period
  have hstarted : r.phase ≠ .unstarted := by
    intro hphase
    rw [hphase] at hloop
    cases hloop
  have hperiod : loop.poll.period = period := by
    have htimed := loop_after m wall before loop hloop
    rw [htimed.poll, ((ofMonitor m wall).sameMake_after before).settings]
    rfl
  have hsendDue : r.SendDue period := by
    refine ⟨hstarted, fun loop' hloop' => ?_⟩
    rw [hloop] at hloop'
    cases hloop'
    exact ⟨hperiod, send, hsend, hdue⟩
  have hapart := (pollsAhead_apart r xs hsendDue).1
  refine ⟨hapart, fun hnear => ?_, fun hpoll hslow => ?_⟩
  · match r.pollsAhead xs, hapart, hnear with
    | [], _, _ => exact Nat.zero_le 1
    | [_], _, _ => exact Nat.le_refl 1
    | s :: s' :: _, hapart, hnear =>
      have hfar := (List.isChain_cons_cons.mp hapart).1
      have hclose := (List.isChain_cons_cons.mp hnear).1
      omega
  · refine starts_of_slow r xs hstarted (fun loop' hloop' => ?_) hslow
    rw [hloop] at hloop'
    cases hloop'
    refine ⟨hperiod, fun s hs => hpoll.trans (r.now_le_of_mem_starts xs s ?_)⟩
    exact List.mem_of_mem_head? hs

/-! ### A node whose polls take twice their period -/

/-- The loop takes its turn, and is kept for two seconds by the tick that it begins with. -/
def slowTick : List Action :=
  [.turn, .pass (.ofMillis 2000) .epoch, .finish (Monitor.underLoad 10 none).answers]

/-- The loop starts and polls after a second. Meanwhile the timer for snapshots becomes due. -/
def slowStart : List Action := [.turn, .pass (.ofMillis 1000) .epoch] ++ slowTick

/-- Four polls in a row, and no end. -/
theorem polls_ahead_of_send_pacedNode :
    let r := (ofMonitor pacedMonitor .epoch).after slowStart
    let xs := slowTick ++ slowTick ++ slowTick ++ slowTick
    (∀ s ∈ r.starts xs, s.2 = .poll) ∧ (r.starts xs).length = 4 := by
  intro r xs
  have hloop : r.phase.loop? = some ⟨⟨2000000000, 1000000000, by decide⟩,
      some ⟨1500000000, 1500000000, by decide⟩⟩ := rfl
  have hlaw := polls_ahead_of_send pacedMonitor .epoch hloop rfl (by decide +kernel) xs
  have hslow : (r.starts xs).IsChain fun s s' => s.1 + 1000000000 ≤ s'.1 := by decide +kernel
  exact ⟨hlaw.2.2 (by decide +kernel) hslow, by decide +kernel⟩

/-- There may be more than one poll ahead of a snapshot that is due, though nobody shuts the
loop down. -/
theorem not_one_poll_ahead :
    ¬ ∀ (b : Blueprint) (a₀ : Answers) (m : Monitor), (Monitor.build b a₀).result = .ok m →
      ∀ (wall : Timestamp) (before xs : List Action) (loop : Loop) (send : Timer),
        ((ofMonitor m wall).after before).phase.loop? = some loop → loop.send = some send →
        send.deadline ≤ ((ofMonitor m wall).after before).now →
        .close ∉ before ++ xs → .drop ∉ before ++ xs →
        (((ofMonitor m wall).after before).pollsAhead xs).length ≤ 1 := by
  intro h
  have hone : (((ofMonitor pacedMonitor .epoch).after slowStart).pollsAhead
      (slowTick ++ slowTick)).length ≤ 1 :=
    h pacedNode _ pacedMonitor build_pacedNode .epoch slowStart (slowTick ++ slowTick) _ _ rfl rfl
      (by decide +kernel) (by simp [slowStart, slowTick]) (by simp [slowStart, slowTick])
  exact absurd hone (by decide +kernel)

end Runner

end QuotaWatch
