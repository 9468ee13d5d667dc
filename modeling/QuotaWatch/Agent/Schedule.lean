/-
# Timers and the loop

A loop has a timer for polls and, unless every poll is followed by a snapshot, a
timer for snapshots. Times are nanoseconds of a clock that never goes back.
When both timers are due the poll goes first. A timer that is served more than
five milliseconds late counts its next period from the time it is served,
otherwise from its deadline.

An instant holds its seconds in a signed word, and the sum of an instant and a
span that no instant can hold is a panic. Of the clock it is assumed that it
stays in the first half of that range, which is more than 10 ^ 11 years behind
the start of the machine. A timer that has been due can then always be put off,
and only a first deadline can be out of reach. Of the timers of the runtime it is
assumed that a span of zero is a panic and that a timer is due from its deadline
on, however far off it is.

Key definitions: `Timer`, `Timer.start?`, `Timer.served`, `Loop`, `Loop.start?`,
`Loop.next?`, `Loop.due`.
Key theorems: `Timer.deadline_lt_served`, `Loop.next?_eq_some`, `Loop.next?_eq_none`,
`Loop.next?_poll_first`.
-/
import QuotaWatch.Settings

namespace QuotaWatch

open Time

/-- A timer with its next deadline. -/
structure Timer where
  deadline : Nat
  period : Nat
  period_pos : 0 < period
deriving DecidableEq

namespace Timer

/-- The first time that no instant can hold. -/
def clockEnd : Nat := 0x8000000000000000 * 1000000000

/-- A timer that is first due one period from now. There is none without a period, and none
for a deadline that no instant can hold. -/
def start? (now : Nat) (period : Span) : Option Timer :=
  if h : 0 < period.nanos ∧ now + period.nanos < clockEnd then
    some ⟨now + period.nanos, period.nanos, h.1⟩
  else none

def isDue (t : Timer) (now : Nat) : Bool := t.deadline ≤ now

/-- How late a timer may be served and still keep its pace. -/
def tolerance : Span := .ofMillis 5

/-- The timer once it has been served. -/
def served (t : Timer) (now : Nat) : Timer :=
  { t with deadline := (if tolerance.nanos < now - t.deadline then now else t.deadline) + t.period }

/-- Being served puts the deadline off. -/
theorem deadline_lt_served (t : Timer) (now : Nat) : t.deadline < (t.served now).deadline := by
  have := t.period_pos
  simp only [served]
  split <;> omega

end Timer

/-- What a loop does when a timer is due. -/
inductive Job where
  /-- Poll, and send a snapshot behind it where the two go together. -/
  | poll
  /-- Send a snapshot. -/
  | send
deriving Repr, DecidableEq

/-- The timers of a loop. -/
structure Loop where
  poll : Timer
  /-- The timer for snapshots; without it they go with the polls. -/
  send : Option Timer
deriving DecidableEq

namespace Loop

/-- The loop for settings, if all its timers can start. -/
def start? (now : Nat) (s : Settings) : Option Loop := do
  let poll ← Timer.start? now s.pollPeriod
  if s.isCombined then pure ⟨poll, none⟩
  else
    let send ← Timer.start? now s.sendEvery
    pure ⟨poll, some send⟩

/-- The next job that is due, with the loop once it is done. -/
def next? (l : Loop) (now : Nat) : Option (Job × Loop) :=
  if l.poll.isDue now then some (.poll, { l with poll := l.poll.served now })
  else
    match l.send with
    | none => none
    | some send =>
      if send.isDue now then some (.send, { l with send := some (send.served now) }) else none

/-- The time by which the deadlines lie in the past, and one for each timer that is due. -/
def overdue (l : Loop) (now : Nat) : Nat :=
  (now + 1 - l.poll.deadline) + (l.send.elim 0 fun send => now + 1 - send.deadline)

/-- A job that is next is one whose timer is due, and a send is next only where no poll is. -/
theorem next?_eq_some {l l' : Loop} {now : Nat} {job : Job} (h : l.next? now = some (job, l')) :
    (job = .poll ∧ l.poll.isDue now = true ∧ l' = { l with poll := l.poll.served now }) ∨
      (job = .send ∧ l.poll.isDue now = false ∧ ∃ send, l.send = some send ∧
        send.isDue now = true ∧ l' = { l with send := some (send.served now) }) := by
  unfold next? at h
  split at h
  · rename_i hpoll
    cases h
    exact Or.inl ⟨rfl, hpoll, rfl⟩
  · rename_i hpoll
    split at h
    · cases h
    · rename_i send hsend
      split at h
      · rename_i hdue
        cases h
        exact Or.inr ⟨rfl, Bool.eq_false_iff.mpr hpoll, send, hsend, hdue, rfl⟩
      · cases h

/-- Nothing is next where no timer is due. -/
theorem next?_eq_none {l : Loop} {now : Nat} (h : l.next? now = none) :
    l.poll.isDue now = false ∧ ∀ send, l.send = some send → send.isDue now = false := by
  unfold next? at h
  split at h
  · cases h
  · rename_i hpoll
    refine ⟨Bool.eq_false_iff.mpr hpoll, fun send hsend => ?_⟩
    rw [hsend] at h
    dsimp only at h
    split at h
    · cases h
    · rename_i hdue
      exact Bool.eq_false_iff.mpr hdue

theorem overdue_next {l l' : Loop} {now : Nat} {job : Job} (h : l.next? now = some (job, l')) :
    l'.overdue now < l.overdue now := by
  rcases next?_eq_some h with ⟨-, hdue, rfl⟩ | ⟨-, -, send, hsend, hdue, rfl⟩
  · have := l.poll.deadline_lt_served now
    simp only [Timer.isDue, decide_eq_true_eq] at hdue
    simp only [overdue]
    omega
  · have := send.deadline_lt_served now
    simp only [Timer.isDue, decide_eq_true_eq] at hdue
    simp only [overdue, hsend, Option.elim_some]
    omega

/-- The jobs that are due, in the order in which they are done, and the loop afterwards. -/
def due (l : Loop) (now : Nat) : List Job × Loop :=
  match _h : l.next? now with
  | none => ([], l)
  | some (job, l') =>
    let (jobs, l'') := l'.due now
    (job :: jobs, l'')
termination_by l.overdue now
decreasing_by exact overdue_next _h

/-- When the poll timer is due, a poll is next. -/
theorem next?_poll_first {l : Loop} {now : Nat} (h : l.poll.isDue now = true) :
    l.next? now = some (.poll, { l with poll := l.poll.served now }) := by
  simp [next?, h]

end Loop

end QuotaWatch
