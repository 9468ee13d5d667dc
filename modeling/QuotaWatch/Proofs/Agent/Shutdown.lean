/-
# Shutting a loop down

A signal to shut down waits for the loop until its next turn, and goes before
every timer there. From the moment it is sent the loop begins with nothing any
more: it ends the tick at which it is, with the send behind it where a poll and a
send go together, and then itself (`Runner.starts_of_signalled`,
`Runner.inFlight_after`, `Runner.Signalled.ends`). The call that closes the monitor
first returns behind the end of the loop. From then on there are only calls, and
they have no effects but notes about registrations (`Runner.Closed.after`).

A shutdown is noted once: by the loop at its end, and by the monitor when the call
that waits for this end returns (`Runner.farewell_after`).

A call that closes the monitor while another one waits, or after the one that
waited was given up, returns at once. Behind its return nothing ticks exactly if
no tick is in flight (`Runner.Consistent.silent_iff`). Where the call that waited
was given up, nobody makes the notes of the monitor
(`Runner.Consistent.shutdown_of_left`).

Key definitions: `Runner.Signalled`, `Runner.inFlight`, `Runner.Consistent`,
`Runner.returns`, `Runner.Closed`, `Event.isShutdown`, `Runner.farewell`.
Key theorems: `Runner.Signalled.step`, `Runner.inFlight_step`, `Runner.Consistent.step`,
`Runner.Closed.again`, `Runner.farewell_step`, `Runner.Consistent.silent_iff`,
`Runner.shutdown_of_run`, `Runner.not_silent_behind_return`.
-/
import QuotaWatch.Proofs.Agent.Runner

namespace QuotaWatch

open Time

/-! ### Notes of a shutdown -/

/-- A note that a shutdown makes. -/
def Notice.isShutdown : Notice → Bool
  | .loopStopped | .loopBroken _ | .closed _ _ | .stopped _ => true
  | _ => false

/-- A note about registrations or a shutdown, or that of a loop that starts. -/
def Notice.isQuiet (notice : Notice) : Bool :=
  notice.isRegistration || notice.isShutdown || notice matches .loopStarted _ _

/-- An effect that is a note of a shutdown. -/
def Event.isShutdown : Event → Bool
  | .noted notice => notice.isShutdown
  | _ => false

theorem Notice.isShutdown_of_isRegistration {notice : Notice} (h : notice.isRegistration = true) :
    notice.isShutdown = false := by
  cases notice <;> first | rfl | cases h

namespace Monitor

/-- A call only makes notes about registrations. -/
theorem call_events {m : Monitor} {call : Call} {event : Event}
    (h : event ∈ (m.step call.operation).2) :
    ∃ notice, event = .noted notice ∧ notice.isRegistration = true := by
  cases call with
  | start id params => exact start_events h
  | stop id => exact stop_events h
  | query => cases h

theorem any_isShutdown_flatMap {α : Type} {l : List α} {f : α → List Event}
    (h : ∀ x ∈ l, (f x).any Event.isShutdown = false) :
    (l.flatMap f).any Event.isShutdown = false := by
  rw [List.any_flatMap, List.any_eq_false]
  intro x hx
  rw [h x hx]
  exact Bool.false_ne_true

theorem any_isShutdown_fetches (f : Fetches) (entity : String) :
    (f.events entity).any Event.isShutdown = false := by
  refine any_isShutdown_flatMap ?_
  rintro ⟨probe, failed⟩ -
  cases failed <;> rfl

theorem any_isShutdown_alertEvents (m : Monitor) {notice : Notice} (record : AlertRecord)
    (hnotice : notice.isShutdown = false) :
    (m.alertEvents notice record).any Event.isShutdown = false := by
  rw [alertEvents, List.any_cons, List.any_cons, show (Event.noted notice).isShutdown = false from hnotice]
  split <;> rfl

/-- A poll makes no note of a shutdown. -/
theorem any_isShutdown_pollEvents (m : Monitor) (a : Answers) (now : Timestamp) :
    (m.pollEvents a now).any Event.isShutdown = false := by
  have hfetches : (m.fetchEvents a).any Event.isShutdown = false := by
    rw [fetchEvents, List.cons_append, List.any_cons, List.any_append, any_isShutdown_fetches,
      any_isShutdown_flatMap fun entry _ => any_isShutdown_fetches _ _]
    rfl
  have hnode : (m.systemAlertEvents a now).any Event.isShutdown = false :=
    any_isShutdown_flatMap fun alert _ => m.any_isShutdown_alertEvents _ rfl
  rw [pollEvents, List.any_append, List.any_append, List.any_append, hfetches, hnode,
    any_isShutdown_flatMap]
  · rfl
  · rintro ⟨id, i⟩ -
    exact any_isShutdown_flatMap fun alert _ => m.any_isShutdown_alertEvents _ rfl

/-- What is done under the lock makes no note of a shutdown. -/
theorem any_isShutdown_step (m : Monitor) (op : Operation) :
    (m.step op).2.any Event.isShutdown = false := by
  have registrations : ∀ events : List Event,
      (∀ event ∈ events, ∃ notice, event = .noted notice ∧ notice.isRegistration = true) →
      events.any Event.isShutdown = false := by
    intro events h
    rw [List.any_eq_false]
    intro event hevent
    obtain ⟨notice, rfl, hnotice⟩ := h event hevent
    rw [Event.isShutdown, Notice.isShutdown_of_isRegistration hnotice]
    exact Bool.false_ne_true
  cases op with
  | poll a now => exact m.any_isShutdown_pollEvents a now
  | send now => rfl
  | start id params => exact registrations _ fun _ => start_events
  | stop id => exact registrations _ fun _ => stop_events
  | query => rfl

end Monitor

/-- The ticks that a loop with some settings runs before its next turn. -/
def Phase.inFlight (s : Settings) : Phase → List Tick
  | .polling _ _ => .poll :: if s.isCombined then [.send] else []
  | .sending _ _ => [.send]
  | .unstarted | .waiting _ | .ended => []

namespace Runner

variable {r : Runner}

/-! ### Signals -/

/-- A signal to shut down was sent: the loop has ended, or there is one for it to receive, or
nobody is left who could send one. -/
def Signalled (r : Runner) : Prop := r.phase = .ended ∨ 0 < r.signals ∨ r.owned = false

/-- What was sent is received, unless the loop has ended. -/
theorem Signalled.received (h : r.Signalled) (hphase : r.phase ≠ .ended) : r.receipt? ≠ none := by
  unfold receipt?
  rcases h with h | hsignals | howned
  · exact absurd h hphase
  · split
    · omega
    · exact nofun
    · exact nofun
  · rw [howned]
    split <;> exact nofun

theorem signalled_close (r : Runner) : r.close.Signalled := by
  unfold close signal
  split
  · rename_i hphase
    exact Or.inl hphase
  · exact Or.inr (Or.inl (Nat.succ_pos _))

/-- A loop that starts goes on to wait, or breaks off. -/
theorem start_cases (r : Runner) :
    (∃ loop, r.start = { r with phase := .waiting loop }) ∨ r.start = r.brokenOff := by
  unfold start
  split
  · exact Or.inl ⟨_, rfl⟩
  · exact Or.inr rfl

/-- A signal that was sent is not taken back. -/
theorem Signalled.step (h : r.Signalled) (x : Action) : (r.step x).1.Signalled := by
  by_cases hended : r.phase = .ended
  · exact Or.inl (r.ended_step x hended)
  have hsent : 0 < r.signals ∨ r.owned = false := h.resolve_left hended
  cases x with
  | pass span wall => exact h
  | turn =>
    rcases r.turn_cases with ⟨-, -, he⟩ | ⟨_, -, -, -, he⟩ | ⟨_, _, _, -, hnone, -⟩ |
      ⟨-, -, -, he⟩
    · rw [Runner.step, he]
      rcases r.start_cases with ⟨loop, hstart⟩ | hstart <;> rw [hstart]
      · exact Or.inr hsent
      · exact Or.inl rfl
    · rw [Runner.step, he]
      exact Or.inl rfl
    · exact absurd hnone (h.received hended)
    · rw [Runner.step, he]
      exact h
  | finish a =>
    rcases r.finish_cases a with ⟨_, _, -, -, he⟩ | ⟨_, _, -, -, he⟩ | ⟨-, -, he⟩ <;>
      (rw [Runner.step, he]; exact Or.inr hsent)
  | call call =>
    simp only [Runner.step]
    split <;> exact h
  | close =>
    simp only [Runner.step]
    split
    · exact r.signalled_close
    · exact h
  | join =>
    simp only [Runner.step]
    split <;> exact h
  | leave =>
    simp only [Runner.step]
    split <;> exact h
  | drop =>
    simp only [Runner.step]
    split
    · exact Or.inr (Or.inr rfl)
    · exact h

/-- **Behind a signal the loop begins with nothing.** -/
theorem Signalled.job? (h : r.Signalled) (x : Action) : r.job? x = none := by
  by_cases hx : x = .turn
  · subst hx
    rcases r.turn_cases with ⟨-, hjob, -⟩ | ⟨_, -, -, hjob, -⟩ | ⟨_, _, _, hphase, hnone, -⟩ |
      ⟨-, -, hjob, -⟩
    · exact hjob
    · exact hjob
    · refine absurd hnone (h.received ?_)
      rw [hphase]
      simp
    · exact hjob
  · exact r.job?_of_ne_turn hx

theorem starts_of_signalled : ∀ (r : Runner) (xs : List Action), r.Signalled → r.starts xs = []
  | _, [], _ => rfl
  | r, x :: xs, h => by
    rw [starts_cons, h.job? x, starts_of_signalled (r.step x).1 xs (h.step x)]
    rfl

/-! ### What is in flight -/

/-- The ticks that the loop runs before its next turn. -/
def inFlight (r : Runner) : List Tick := r.phase.inFlight r.monitor.settings

/-- The end of a tick is the end of the first that is in flight. -/
theorem inFlight_finish (r : Runner) (a : Answers) :
    (r.ticksOf (.finish a)).map (·.2) = r.inFlight.head?.toList ∧
      (r.step (.finish a)).1.inFlight = r.inFlight.tail := by
  rcases r.finish_cases a with ⟨loop, began, hphase, hbody, he⟩ |
    ⟨loop, began, hphase, hbody, he⟩ | ⟨hidle, hbody, he⟩
  · rw [step, he, ticksOf, hbody, inFlight, inFlight, hphase]
    refine ⟨rfl, ?_⟩
    show Phase.inFlight r.monitor.settings (ite _ _ _) = ite _ _ _
    split <;> rfl
  · rw [step, he, ticksOf, hbody, inFlight, inFlight, hphase]
    exact ⟨rfl, rfl⟩
  · have hnone : r.inFlight = [] := by
      rw [inFlight]
      cases hphase : r.phase with
      | polling loop began => exact absurd hphase (hidle loop began).1
      | sending loop began => exact absurd hphase (hidle loop began).2
      | _ => rfl
    rw [step, he, ticksOf, hbody, hnone]
    exact ⟨rfl, rfl⟩

/-- Behind a signal a tick ends only where it is in flight. -/
theorem inFlight_step (h : r.Signalled) (x : Action) :
    (r.ticksOf x).map (·.2) ++ (r.step x).1.inFlight = r.inFlight := by
  by_cases hfinish : ∃ a, x = .finish a
  · obtain ⟨a, rfl⟩ := hfinish
    obtain ⟨hticks, hrest⟩ := r.inFlight_finish a
    rw [hticks, hrest]
    cases r.inFlight <;> rfl
  · rw [r.ticksOf_of_ne_finish fun a ha => hfinish ⟨a, ha⟩, List.map_nil, List.nil_append]
    by_cases hturn : x = .turn
    · subst hturn
      rcases r.turn_cases with ⟨hphase, -, he⟩ | ⟨_, hphase, -, -, he⟩ |
        ⟨_, _, _, -, -, -, hjob, -⟩ | ⟨-, -, -, he⟩
      · rw [step, he, inFlight, inFlight, hphase]
        rcases r.start_cases with ⟨loop, hstart⟩ | hstart <;> rw [hstart] <;> rfl
      · rw [step, he, inFlight, inFlight, hphase]
        rfl
      · rw [h.job?] at hjob
        cases hjob
      · rw [step, he]
    · rw [inFlight, inFlight, r.settings_step, r.phase_step hturn fun a ha => hfinish ⟨a, ha⟩]

/-- **Behind a signal the loop ends the ticks in flight**, and runs no others. -/
theorem inFlight_after : ∀ (r : Runner) (xs : List Action), r.Signalled →
    (r.ticks xs).map (·.2) ++ (r.after xs).inFlight = r.inFlight
  | _, [], _ => rfl
  | r, x :: xs, h => by
    rw [ticks_cons, List.map_append, List.append_assoc, after,
      inFlight_after (r.step x).1 xs (h.step x), inFlight_step h]

/-! ### Who waits for the end -/

/-- Who waits for the end of the loop: nobody at first, then the call that closes the monitor
first, until it returns or is given up. -/
theorem handle_step (r : Runner) (x : Action) :
    (r.step x).1.handle = r.handle ∨
    (x = .close ∧ r.handle = .kept ∧ (r.step x).1 = r.close ∧ (r.step x).1.handle = .awaited) ∨
    (x = .join ∧ r.handle = .awaited ∧ r.phase = .ended ∧
      (r.step x).1 = { r with handle := .joined }) ∨
    (x = .leave ∧ r.handle = .awaited ∧ (r.step x).1 = { r with handle := .left }) := by
  cases x with
  | pass span wall => exact Or.inl rfl
  | turn =>
    obtain ⟨phase, signals, broken, h⟩ := r.turn_eq
    rw [step, h]
    exact Or.inl rfl
  | finish a =>
    rcases r.finish_cases a with ⟨_, _, -, -, h⟩ | ⟨_, _, -, -, h⟩ | ⟨-, -, h⟩ <;>
      (rw [step, h]; exact Or.inl rfl)
  | call call =>
    rw [step]
    split <;> exact Or.inl rfl
  | close =>
    rw [step]
    split
    · by_cases hkept : r.handle = .kept
      · exact Or.inr (Or.inl ⟨rfl, hkept, rfl, if_pos hkept⟩)
      · obtain ⟨signals, h⟩ := r.signal_eq
        rw [close, h]
        exact Or.inl (if_neg hkept)
    · exact Or.inl rfl
  | join =>
    rw [step]
    split
    · rename_i hhandle hphase
      exact Or.inr (Or.inr (Or.inl ⟨rfl, hhandle, hphase, rfl⟩))
    · exact Or.inl rfl
  | leave =>
    rw [step]
    split
    · rename_i hhandle
      exact Or.inr (Or.inr (Or.inr ⟨rfl, hhandle, rfl⟩))
    · exact Or.inl rfl
  | drop =>
    obtain ⟨signals, h⟩ := r.signal_eq
    rw [step, h]
    split <;> exact Or.inl rfl

theorem handle_step_of_ne (r : Runner) {x : Action} (hclose : x ≠ .close) (hjoin : x ≠ .join)
    (hleave : x ≠ .leave) : (r.step x).1.handle = r.handle := by
  rcases r.handle_step x with h | ⟨h, -⟩ | ⟨h, -⟩ | ⟨h, -⟩
  · exact h
  · exact absurd h hclose
  · exact absurd h hjoin
  · exact absurd h hleave

/-- A monitor that was closed has sent a signal, and the call that closed it has waited. -/
structure Consistent (r : Runner) : Prop where
  signalled : r.handle ≠ .kept → r.Signalled
  joined : r.handle = .joined → r.phase = .ended
  broken : r.broken = true → r.phase = .ended

/-- A loop that broke off has ended. -/
theorem Consistent.broken_step (h : r.Consistent) (x : Action) :
    (r.step x).1.broken = true → (r.step x).1.phase = .ended := by
  by_cases hturn : x = .turn
  · subst hturn
    have running : r.phase ≠ .ended → r.broken ≠ true := fun hphase hbroken =>
      hphase (h.broken hbroken)
    rcases r.turn_cases with ⟨hphase, -, he⟩ | ⟨_, -, -, -, he⟩ |
      ⟨_, _, _, hphase, -, -, -, he⟩ | ⟨-, -, -, he⟩ <;> rw [Runner.step, he]
    · rcases r.start_cases with ⟨loop, hstart⟩ | hstart <;> rw [hstart]
      · exact fun hbroken => absurd hbroken (running (by rw [hphase]; simp))
      · exact fun _ => rfl
    · exact fun _ => rfl
    · exact fun hbroken => absurd hbroken (running (by rw [hphase]; simp))
    · exact h.broken
  · intro hbroken
    rw [r.broken_step_of_ne_turn hturn] at hbroken
    exact r.ended_step x (h.broken hbroken)

theorem Consistent.step (h : r.Consistent) (x : Action) : (r.step x).1.Consistent := by
  have hbroken := h.broken_step x
  rcases r.handle_step x with hsame | ⟨-, -, he, hhandle⟩ | ⟨-, -, hphase, he⟩ |
    ⟨-, hhandle, he⟩
  · refine ⟨fun hkept => ?_, fun hjoined => ?_, hbroken⟩
    · rw [hsame] at hkept
      exact (h.signalled hkept).step x
    · rw [hsame] at hjoined
      exact r.ended_step x (h.joined hjoined)
  · refine ⟨fun _ => ?_, fun hjoined => ?_, hbroken⟩
    · rw [he]
      exact r.signalled_close
    · rw [hhandle] at hjoined
      cases hjoined
  · rw [he] at hbroken ⊢
    exact ⟨fun _ => Or.inl hphase, fun _ => hphase, hbroken⟩
  · have hsent : r.Signalled := h.signalled (by rw [hhandle]; simp)
    rw [he] at hbroken ⊢
    exact ⟨fun _ => hsent, nofun, hbroken⟩

theorem consistent_after (m : Monitor) (wall : Timestamp) (xs : List Action) :
    ((ofMonitor m wall).after xs).Consistent :=
  after_induction (fun _ x h => h.step x) _ xs ⟨fun h => absurd rfl h, nofun, nofun⟩

/-- A call that closes the monitor and dropping it send a signal, unless one was sent before. -/
theorem Consistent.signalled_step (h : r.Consistent) {x : Action} (hx : x = .close ∨ x = .drop) :
    (r.step x).1.Signalled := by
  rcases hx with rfl | rfl
  · by_cases howned : r.owned = true
    · rw [Runner.step, if_pos howned]
      exact r.signalled_close
    · rw [Runner.step, if_neg howned]
      exact Or.inr (Or.inr (Bool.eq_false_of_not_eq_true howned))
  · rw [Runner.step]
    split
    · exact Or.inr (Or.inr rfl)
    · rename_i hbusy
      by_cases howned : r.owned = true
      · -- a call waits, which has sent a signal
        refine h.signalled fun hkept => hbusy ⟨howned, ?_⟩
        rw [hkept]
        simp
      · exact Or.inr (Or.inr (Bool.eq_false_of_not_eq_true howned))

/-- Where no tick is in flight, the loop ends when it gets to run. -/
theorem Signalled.turns (h : r.Signalled) (hidle : r.inFlight = []) :
    (r.after [.turn, .turn]).phase = .ended := by
  have ends : ∀ r : Runner, r.Signalled → ∀ loop, r.phase = .waiting loop →
      (r.step .turn).1.phase = .ended := by
    intro r h loop hphase
    rcases r.turn_cases with ⟨hphase', -⟩ | ⟨_, -, -, -, he⟩ | ⟨_, _, _, -, -, -, hjob, -⟩ |
      ⟨hnone, -⟩
    · rw [hphase] at hphase'
      cases hphase'
    · rw [Runner.step, he]
      rfl
    · rw [h.job?] at hjob
      cases hjob
    · exact absurd (hnone loop hphase).1 (h.received (by rw [hphase]; simp))
  show ((r.step .turn).1.step .turn).1.phase = .ended
  cases hphase : r.phase with
  | unstarted =>
    have hstart : (r.step .turn).1 = r.start := by rw [Runner.step, turn, hphase]
    rcases r.start_cases with ⟨loop, he⟩ | he
    · exact ends _ (h.step .turn) loop (by rw [hstart, he])
    · exact ended_step _ _ (by rw [hstart, he]; rfl)
  | waiting loop => exact ended_step _ _ (ends r h loop hphase)
  | ended => exact ended_step _ _ (r.ended_step _ hphase)
  | _ =>
    rw [inFlight, hphase] at hidle
    cases hidle

/-- The ticks in flight come to their ends, and the loop gets to run. -/
def windDown (a : Answers) : List Action := [.finish a, .finish a, .turn, .turn]

/-- **The loop that is shut down ends.** -/
theorem Signalled.ends (h : r.Signalled) (a : Answers) : (r.after (windDown a)).phase = .ended := by
  refine ((h.step _).step _).turns ?_
  rw [(inFlight_finish _ a).2, (r.inFlight_finish a).2, inFlight]
  cases r.phase with
  | polling loop began =>
    rw [Phase.inFlight]
    split <;> rfl
  | _ => rfl

/-- The call that waits for the end of the loop returns behind it. -/
theorem joined_of_awaited (h : r.Consistent) (hawaited : r.handle = .awaited) (a : Answers) :
    (r.after (windDown a ++ [.join])).handle = .joined := by
  have hsent : r.Signalled := h.signalled (by rw [hawaited]; simp)
  have hwaits : (r.after (windDown a)).handle = .awaited := by
    have hturn (r : Runner) : (r.step .turn).1.handle = r.handle :=
      r.handle_step_of_ne (by simp) (by simp) (by simp)
    have hfinish (r : Runner) : (r.step (.finish a)).1.handle = r.handle :=
      r.handle_step_of_ne (by simp) (by simp) (by simp)
    simp only [windDown, after, hturn, hfinish, hawaited]
  rw [after_concat, step, hwaits, hsent.ends a]

/-! ### Behind the end -/

/-- But for turns and the return of the call that waits, effects are those of what is done under
the lock. -/
theorem step_effects (r : Runner) {x : Action} (hturn : x ≠ .turn) (hjoin : x ≠ .join) :
    (r.step x).2 = (r.body? x).elim [] fun op => (r.monitor.step op).2 := by
  cases x with
  | turn => exact absurd rfl hturn
  | join => exact absurd rfl hjoin
  | pass span wall => rfl
  | finish a =>
    rcases r.finish_cases a with ⟨_, _, -, hbody, he⟩ | ⟨_, _, -, hbody, he⟩ | ⟨-, hbody, he⟩ <;>
      (rw [step, he, hbody]; rfl)
  | call call =>
    rw [step, body?]
    split <;> rfl
  | close =>
    rw [step]
    split <;> rfl
  | leave =>
    rw [step]
    split <;> rfl
  | drop =>
    rw [step]
    split <;> rfl

/-- The loop has ended, and the call that waited for its end has returned. -/
structure Closed (r : Runner) : Prop where
  phase : r.phase = .ended
  handle : r.handle = .joined

theorem Closed.step (h : r.Closed) (x : Action) : (r.step x).1.Closed := by
  refine ⟨r.ended_step x h.phase, ?_⟩
  rcases r.handle_step x with hsame | ⟨-, hhandle, -⟩ | ⟨-, hhandle, -⟩ | ⟨-, hhandle, -⟩
  · exact hsame.trans h.handle
  all_goals
    rw [h.handle] at hhandle
    cases hhandle

/-- Only calls have effects on a closed monitor: they make notes about registrations. -/
theorem Closed.events (h : r.Closed) {x : Action} {event : Event} (hevent : event ∈ (r.step x).2) :
    ∃ notice, event = .noted notice ∧ notice.isRegistration = true := by
  by_cases hturn : x = .turn
  · subst hturn
    rw [Runner.step, turn, h.phase] at hevent
    cases hevent
  by_cases hjoin : x = .join
  · subst hjoin
    rw [Runner.step, h.handle, h.phase] at hevent
    cases hevent
  rw [r.step_effects hturn hjoin] at hevent
  cases hbody : r.body? x with
  | none =>
    rw [hbody] at hevent
    cases hevent
  | some op =>
    obtain ⟨call, rfl⟩ := body?_of_ended h.phase hbody
    rw [hbody] at hevent
    exact Monitor.call_events hevent

/-- **Nothing ticks on a closed monitor**, and there are no effects but notes about
registrations. -/
theorem Closed.after : ∀ {r : Runner} (xs : List Action), r.Closed →
    r.ticks xs = [] ∧
      ∀ event ∈ r.effects xs, ∃ notice, event = .noted notice ∧ notice.isRegistration = true
  | _, [], _ => ⟨rfl, nofun⟩
  | r, x :: xs, h => by
    obtain ⟨-, hevents⟩ := Closed.after xs (h.step x)
    refine ⟨ticks_of_ended r _ h.phase, fun event hevent => ?_⟩
    rw [effects_cons] at hevent
    rcases List.mem_append.mp hevent with hfirst | hrest
    · exact h.events hfirst
    · exact hevents event hrest

/-- **Closing a closed monitor does nothing**, however often, nor does dropping it. -/
theorem Closed.again : ∀ {r : Runner} (xs : List Action), r.Closed →
    (∀ x ∈ xs, x = .close ∨ x = .drop) →
    (∃ owned, r.after xs = { r with owned }) ∧ r.effects xs = []
  | r, [], _, _ => ⟨⟨r.owned, rfl⟩, rfl⟩
  | r, x :: xs, h, hxs => by
    have hsignal : r.signal = r := by rw [signal, h.phase]
    have hclose : r.close = r := by
      rw [close, hsignal, h.handle]
      exact congrArg (fun handle => { r with handle }) h.handle.symm
    obtain ⟨owned, he⟩ : ∃ owned, r.step x = ({ r with owned }, []) := by
      rcases hxs x List.mem_cons_self with rfl | rfl
      · refine ⟨r.owned, ?_⟩
        rw [Runner.step, hclose]
        split <;> rfl
      · rw [Runner.step, hsignal]
        split
        · exact ⟨false, rfl⟩
        · exact ⟨r.owned, rfl⟩
    have hnext : (r.step x).1.Closed := h.step x
    rw [he] at hnext
    obtain ⟨⟨owned', hafter⟩, heffects⟩ :=
      Closed.again xs hnext fun y hy => hxs y (List.mem_cons_of_mem _ hy)
    rw [Runner.after, effects_cons, he, hafter, heffects]
    exact ⟨⟨owned', rfl⟩, rfl⟩

/-! ### Notes of the shutdown -/

/-- The notes that a shutdown has made by now: one of the loop that was stopped, and those of
the call that waited for its end. -/
def farewell (r : Runner) : List Event :=
  (match r.phase with
    | .ended => if r.broken then [] else [.noted .loopStopped]
    | _ => []) ++
  if r.handle = .joined then r.endNotes else []

/-- There are none while the loop runs. -/
theorem Consistent.farewell_eq_nil (h : r.Consistent) (hphase : r.phase ≠ .ended) :
    r.farewell = [] := by
  rw [farewell, if_neg fun hjoined => hphase (h.joined hjoined), List.append_nil]
  split
  · rename_i hended
    exact absurd hended hphase
  · rfl

/-- What is done under the lock makes no note of a shutdown. -/
theorem filter_isShutdown_step (r : Runner) {x : Action} (hturn : x ≠ .turn) (hjoin : x ≠ .join) :
    (r.step x).2.filter Event.isShutdown = [] := by
  rw [r.step_effects hturn hjoin]
  cases r.body? x with
  | none => rfl
  | some op =>
    rw [Option.elim_some, List.filter_eq_nil_iff, ← List.any_eq_false]
    exact r.monitor.any_isShutdown_step op

/-- Nothing but its return makes the call that waited one that has returned. -/
theorem joined_step (r : Runner) {x : Action} (hjoin : x ≠ .join) :
    (r.step x).1.handle = .joined ↔ r.handle = .joined := by
  rcases r.handle_step x with hsame | ⟨-, hhandle, -, he⟩ | ⟨hx, -⟩ | ⟨-, hhandle, he⟩
  · rw [hsame]
  · rw [he, hhandle]
    exact iff_of_false nofun nofun
  · exact absurd hx hjoin
  · rw [he, hhandle]
    exact iff_of_false nofun nofun

/-- The loop ends at a turn. -/
theorem running_step (h : r.phase ≠ .ended) {x : Action} (hturn : x ≠ .turn) :
    (r.step x).1.phase ≠ .ended := by
  by_cases hfinish : ∃ a, x = .finish a
  · obtain ⟨a, rfl⟩ := hfinish
    rcases r.finish_cases a with ⟨_, _, -, -, he⟩ | ⟨_, _, -, -, he⟩ | ⟨-, -, he⟩ <;> rw [step, he]
    · dsimp only
      split <;> simp
    · simp
    · exact h
  · rw [r.phase_step hturn fun a ha => hfinish ⟨a, ha⟩]
    exact h

/-- **A step notes of the shutdown what there is to note anew**, and nothing twice. -/
theorem farewell_step (h : r.Consistent) (x : Action) :
    r.farewell ++ (r.step x).2.filter Event.isShutdown = (r.step x).1.farewell := by
  have hnext : (r.step x).1.Consistent := h.step x
  by_cases hjoin : x = .join
  · subst hjoin
    rw [step]
    split
    · rename_i hhandle hphase
      have hnotes : r.endNotes.filter Event.isShutdown = r.endNotes := by
        unfold endNotes
        split <;> rfl
      simp only [farewell, hhandle, hphase, hnotes, reduceCtorEq, ↓reduceIte, List.append_nil]
      rfl
    · exact List.append_nil _
  by_cases hturn : x = .turn
  · subst hturn
    rw [step] at hnext ⊢
    rcases r.turn_cases with ⟨hphase, -, he⟩ | ⟨_, hphase, -, -, he⟩ |
      ⟨_, _, _, hphase, -, -, -, he⟩ | ⟨-, -, -, he⟩
    · have hrunning : r.phase ≠ .ended := by rw [hphase]; simp
      have hnot : r.handle ≠ .joined := fun hjoined => hrunning (h.joined hjoined)
      rw [he] at hnext ⊢
      rw [h.farewell_eq_nil hrunning]
      rcases r.start_cases with ⟨loop, hstart⟩ | hstart <;> rw [hstart] at hnext ⊢
      · rw [hnext.farewell_eq_nil (by simp)]
        rfl
      · have hnot' : r.brokenOff.handle ≠ .joined := hnot
        rw [farewell, if_neg hnot']
        rfl
    · have hrunning : r.phase ≠ .ended := by rw [hphase]; simp
      have hnot : r.stopped.handle ≠ .joined := fun hjoined => hrunning (h.joined hjoined)
      have hsound : r.stopped.broken = false :=
        Bool.eq_false_of_not_eq_true fun hbroken => hrunning (h.broken hbroken)
      rw [he, h.farewell_eq_nil hrunning, farewell, if_neg hnot, hsound]
      rfl
    · rw [he] at hnext ⊢
      rw [h.farewell_eq_nil (by rw [hphase]; simp),
        hnext.farewell_eq_nil (Phase.ofJob_ne_ended _ _ _)]
      rfl
    · rw [he]
      exact List.append_nil _
  rw [r.filter_isShutdown_step hturn hjoin, List.append_nil]
  by_cases hended : r.phase = .ended
  · have hname : (r.step x).1.monitor.nodeId = r.monitor.nodeId := (r.sameMake_after [x]).nodeId
    simp only [farewell, endNotes, hended, r.ended_step x hended, r.joined_step hjoin, hname,
      r.broken_step_of_ne_turn hturn, r.crash_step]
  · rw [h.farewell_eq_nil hended, hnext.farewell_eq_nil (running_step hended hturn)]

/-- The notes of the shutdown in a run. -/
theorem farewell_after : ∀ (r : Runner) (xs : List Action), r.Consistent →
    r.farewell ++ (r.effects xs).filter Event.isShutdown = (r.after xs).farewell
  | _, [], _ => List.append_nil _
  | r, x :: xs, h => by
    rw [effects_cons, List.filter_append, ← List.append_assoc, r.farewell_step h x,
      farewell_after (r.step x).1 xs (h.step x), after]

/-! ### Calls that return -/

/-- A call that closes the monitor returns: at once, where another one waits for the end of the
loop or has waited, and else behind this end. -/
def returns (r : Runner) : Action → Bool
  | .close => r.owned && r.handle != .kept
  | .join =>
    match r.handle, r.phase with
    | .awaited, .ended => true
    | _, _ => false
  | _ => false

/-- A call that returns finds the signal sent, and leaves the ticks in flight. -/
theorem Consistent.of_returns (h : r.Consistent) {x : Action} (hx : r.returns x = true) :
    (r.step x).1.Signalled ∧ (r.step x).1.inFlight = r.inFlight := by
  have hsent : r.handle ≠ .kept → (r.step x).1.Signalled := fun hhandle =>
    (h.signalled hhandle).step x
  cases x with
  | close =>
    simp only [returns, Bool.and_eq_true, bne_iff_ne] at hx
    refine ⟨hsent hx.2, ?_⟩
    rw [inFlight, inFlight, r.settings_step, r.phase_step (by simp) (by simp)]
  | join =>
    simp only [returns] at hx
    split at hx
    · rename_i hhandle hphase
      refine ⟨hsent (by rw [hhandle]; simp), ?_⟩
      rw [inFlight, inFlight, r.settings_step, r.phase_step (by simp) (by simp)]
    · cases hx
  | _ => cases hx

/-- Behind a signal, with no tick in flight, there are quiet notes and no other effects. -/
theorem Signalled.events (h : r.Signalled) (hidle : r.inFlight = []) {x : Action} {event : Event}
    (hevent : event ∈ (r.step x).2) :
    ∃ notice, event = .noted notice ∧ notice.isQuiet = true := by
  by_cases hturn : x = .turn
  · subst hturn
    rw [Runner.step] at hevent
    rcases r.turn_cases with ⟨-, -, he⟩ | ⟨_, -, -, -, he⟩ | ⟨_, _, _, -, -, -, hjob, -⟩ |
      ⟨-, -, -, he⟩
    · rw [he] at hevent
      exact ⟨_, List.mem_singleton.mp hevent, rfl⟩
    · rw [he] at hevent
      exact ⟨_, List.mem_singleton.mp hevent, rfl⟩
    · rw [h.job?] at hjob
      cases hjob
    · rw [he] at hevent
      cases hevent
  by_cases hjoin : x = .join
  · subst hjoin
    rw [Runner.step] at hevent
    split at hevent
    · simp only [endNotes] at hevent
      split at hevent <;> simp only [List.nil_append, List.cons_append, List.mem_cons,
        List.not_mem_nil, or_false] at hevent
      · rcases hevent with rfl | rfl | rfl <;> exact ⟨_, rfl, rfl⟩
      · rcases hevent with rfl | rfl <;> exact ⟨_, rfl, rfl⟩
    · cases hevent
  rw [r.step_effects hturn hjoin] at hevent
  cases x with
  | finish a =>
    have hnone : r.body? (.finish a) = none := by
      unfold body?
      unfold inFlight at hidle
      cases hphase : r.phase <;> rw [hphase] at hidle <;> first | rfl | cases hidle
    rw [hnone] at hevent
    cases hevent
  | call call =>
    by_cases howned : r.owned = true
    · rw [body?, if_pos howned, Option.elim_some] at hevent
      obtain ⟨notice, he, hnotice⟩ := Monitor.call_events hevent
      exact ⟨notice, he, by simp [Notice.isQuiet, hnotice]⟩
    · rw [body?, if_neg howned] at hevent
      cases hevent
  | _ => cases hevent

/-- **Behind a signal, with no tick in flight, nothing ticks** and all effects are quiet notes. -/
theorem Signalled.quiet : ∀ {r : Runner} (xs : List Action), r.Signalled → r.inFlight = [] →
    r.ticks xs = [] ∧
      ∀ event ∈ r.effects xs, ∃ notice, event = .noted notice ∧ notice.isQuiet = true
  | _, [], _, _ => ⟨rfl, nofun⟩
  | r, x :: xs, h, hidle => by
    have hflight := inFlight_step h x
    rw [hidle, List.append_eq_nil_iff, List.map_eq_nil_iff] at hflight
    obtain ⟨hticks, hevents⟩ := Signalled.quiet xs (h.step x) hflight.2
    rw [ticks_cons, effects_cons, hflight.1, hticks]
    refine ⟨rfl, fun event hevent => ?_⟩
    rcases List.mem_append.mp hevent with hfirst | hrest
    · exact h.events hidle hfirst
    · exact hevents event hrest

/-- **Behind the return of a call that closes the monitor** nothing ticks exactly if no tick is
in flight. -/
theorem Consistent.silent_iff (h : r.Consistent) {x : Action} (hx : r.returns x = true) :
    (∀ xs, (r.step x).1.ticks xs = []) ↔ r.inFlight = [] := by
  obtain ⟨hsent, hflight⟩ := h.of_returns hx
  constructor
  · intro hsilent
    let a := (Monitor.underLoad 10 none).answers
    have hover : ((r.step x).1.after (windDown a)).inFlight = [] := by
      rw [inFlight, hsent.ends a]
      rfl
    have hticks := inFlight_after (r.step x).1 (windDown a) hsent
    rw [hsilent, hover, hflight] at hticks
    exact hticks.symm
  · intro hidle xs
    rw [← hflight] at hidle
    exact (hsent.quiet xs hidle).1

/-- A call that was given up is not taken up again. -/
theorem left_after : ∀ {r : Runner} (xs : List Action), r.handle = .left →
    (r.after xs).handle = .left
  | _, [], h => h
  | r, x :: xs, h => by
    refine left_after xs ?_
    rcases r.handle_step x with hsame | ⟨-, hkept, -⟩ | ⟨-, hawaited, -⟩ | ⟨-, hawaited, -⟩
    · exact hsame.trans h
    all_goals
      rw [h] at *
      contradiction

/-- **Where the call that waited was given up**, only the loop notes its end, whoever closes the
monitor then. -/
theorem Consistent.shutdown_of_left (h : r.Consistent) (hleft : r.handle = .left)
    (xs : List Action) :
    ∀ event ∈ r.effects xs, event.isShutdown = true → event = .noted .loopStopped := by
  intro event hevent hshutdown
  have hmem : event ∈ (r.after xs).farewell := by
    rw [← farewell_after r xs h]
    exact List.mem_append_right _ (List.mem_filter.mpr ⟨hevent, hshutdown⟩)
  have hnot : (r.after xs).handle ≠ .joined := by rw [left_after xs hleft]; simp
  rw [farewell, if_neg hnot, List.append_nil] at hmem
  split at hmem
  · split at hmem
    · cases hmem
    · exact List.mem_singleton.mp hmem
  · cases hmem

/-! ### Shutting down -/

/-- **Shutting a loop down**, whatever ran before. Behind the signal, which a call that closes
the monitor sends or who drops it, the loop begins with nothing any more. It ends the tick in
flight, with the send behind it where the two go together, then itself, and the call that waits
for it returns. From then on nothing ticks, there is neither an alert nor a snapshot, and
closing again or dropping the monitor does nothing. Any other call that closes the monitor and
returns with no tick in flight leaves silence behind it too. A shutdown is noted once. -/
theorem shutdown_of_run (m : Monitor) (wall : Timestamp) (before : List Action) :
    let r := (ofMonitor m wall).after before
    (∀ x, x = .close ∨ x = .drop →
      (∀ xs, (r.step x).1.starts xs = [] ∧
        ((r.step x).1.ticks xs).map (·.2) ++ ((r.step x).1.after xs).inFlight = r.inFlight) ∧
      ∀ a, ((r.step x).1.after (windDown a)).phase = .ended) ∧
    (r.handle = .awaited → ∀ a, (r.after (windDown a ++ [.join])).handle = .joined) ∧
    (∀ x, r.returns x = true → r.inFlight = [] → ∀ xs,
      (r.step x).1.starts xs = [] ∧ (r.step x).1.ticks xs = [] ∧
        ∀ event ∈ (r.step x).1.effects xs,
          ∃ notice, event = .noted notice ∧ notice.isQuiet = true) ∧
    (r.handle = .joined → ∀ xs,
      r.starts xs = [] ∧ r.ticks xs = [] ∧
      (∀ event ∈ r.effects xs, ∃ notice, event = .noted notice ∧ notice.isRegistration = true) ∧
      ((∀ x ∈ xs, x = .close ∨ x = .drop) →
        (∃ owned, r.after xs = { r with owned }) ∧ r.effects xs = [])) ∧
    ((ofMonitor m wall).effects before).filter Event.isShutdown = r.farewell := by
  intro r
  have hr : r.Consistent := consistent_after m wall before
  refine ⟨fun x hx => ?_, fun hawaited => joined_of_awaited hr hawaited,
    fun x hx hidle xs => ?_, fun hjoined xs => ?_, ?_⟩
  · have hsent : (r.step x).1.Signalled := hr.signalled_step hx
    have hphase : (r.step x).1.phase = r.phase := by
      rcases hx with rfl | rfl <;> exact r.phase_step (by simp) (by simp)
    have hinFlight : (r.step x).1.inFlight = r.inFlight := by
      rw [inFlight, inFlight, r.settings_step, hphase]
    refine ⟨fun xs => ⟨starts_of_signalled _ xs hsent, ?_⟩, hsent.ends⟩
    exact (inFlight_after _ xs hsent).trans hinFlight
  · obtain ⟨hsent, hflight⟩ := hr.of_returns hx
    exact ⟨starts_of_signalled _ xs hsent, hsent.quiet xs (hflight.trans hidle)⟩
  · have hclosed : r.Closed := ⟨hr.joined hjoined, hjoined⟩
    obtain ⟨hticks, hevents⟩ := hclosed.after xs
    exact ⟨r.starts_of_ended xs hclosed.phase, hticks, hevents, hclosed.again xs⟩
  · have hstart : (ofMonitor m wall).Consistent := consistent_after m wall []
    exact farewell_after (ofMonitor m wall) before hstart

/-- The loop of the small node polls, a second after it has started. -/
def untilPoll : List Action := [.turn, .pass (.ofMillis 1000) .epoch, .turn]

/-- The poll comes to its end with the send behind it, then the loop does, and the call that
closes the monitor. -/
def closing : List Action := windDown (Monitor.underLoad 10 none).answers ++ [.join]

/-- The monitor is closed during a poll, and time and calls go on behind it. -/
theorem shutdown_of_run_smallNode :
    let r₀ := ofMonitor Monitor.smallMonitor .epoch
    let r := r₀.after untilPoll
    let closed := r₀.after (untilPoll ++ [.close] ++ closing)
    let later := [.pass (.ofMillis 5000) .epoch, .turn, .call (.start "a" Monitor.worker),
      .close, .call (.stop "a"), .drop, .turn]
    r.inFlight = [.poll, .send] ∧
      (r.step .close).1.starts (closing ++ later) = [] ∧
      ((r.step .close).1.ticks (closing ++ later)).map (·.2) = [.poll, .send] ∧
      closed.handle = .joined ∧ closed.ticks later = [] ∧
      closed.effects [.close, .close, .drop] = [] ∧
      (r₀.effects (untilPoll ++ [.close] ++ closing ++ later)).filter Event.isShutdown =
        [.noted .loopStopped, .noted (.closed "node0" "closed"), .noted (.stopped "node0")] := by
  intro r₀ r closed later
  have hlaw := shutdown_of_run Monitor.smallMonitor .epoch
  obtain ⟨hstarts, hticks⟩ := ((hlaw untilPoll).1 .close (Or.inl rfl)).1 (closing ++ later)
  have hover : ((r.step .close).1.after (closing ++ later)).inFlight = [] := by decide +kernel
  rw [hover, List.append_nil] at hticks
  obtain ⟨-, hreturns, -⟩ := hlaw (untilPoll ++ [.close])
  have hjoined := hreturns (by decide +kernel) (Monitor.underLoad 10 none).answers
  rw [← after_append, ← closing] at hjoined
  obtain ⟨-, -, -, hbehind, -⟩ := hlaw (untilPoll ++ [.close] ++ closing)
  obtain ⟨-, hticks', -⟩ := hbehind hjoined later
  obtain ⟨-, -, -, hagain⟩ := hbehind hjoined [.close, .close, .drop]
  obtain ⟨-, heffects⟩ := hagain (by simp)
  obtain ⟨-, -, -, -, hnotes⟩ := hlaw (untilPoll ++ [.close] ++ closing ++ later)
  exact ⟨by decide +kernel, hstarts, hticks.trans (by decide +kernel), hjoined, hticks', heffects,
    hnotes.trans rfl⟩

/-- A call that closes the monitor during the poll returns at once where another one waits for
the end of the loop. The poll and the send of its snapshot come to their ends behind it. -/
theorem not_silent_behind_return :
    ¬ ∀ (b : Blueprint) (a₀ : Answers) (m : Monitor), (Monitor.build b a₀).result = .ok m →
      ∀ (wall : Timestamp) (before : List Action) (x : Action),
        ((ofMonitor m wall).after before).returns x = true →
        ∀ xs, (((ofMonitor m wall).after before).step x).1.ticks xs = [] := by
  intro h
  let before := untilPoll ++ [.close]
  let r := (ofMonitor Monitor.smallMonitor .epoch).after before
  have hreturns : r.returns .close = true := by decide +kernel
  have hsilent := h _ _ _ Monitor.build_smallNode .epoch before .close hreturns
  have hidle : r.inFlight = [] :=
    ((consistent_after Monitor.smallMonitor .epoch before).silent_iff hreturns).mp hsilent
  exact absurd hidle (by decide +kernel)

end Runner

end QuotaWatch
