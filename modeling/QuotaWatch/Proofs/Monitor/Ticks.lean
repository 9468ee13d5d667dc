/-
# Ticks among the operations of a run

The loop of a monitor polls and sends; all else is done by calls. Between two
polls nothing but starts and stops touches the records: the record of the node
stays, and that of an instance stays or is fresh. A snapshot therefore carries
what the last poll before it left (`Monitor.carries_of_quiet`).

Key definitions: `Tick`, `Operation.tick?`, `ticksAmong`, `Quiet`, `Monitor.Carries`.
Key theorems: `exists_lastPoll`, `Monitor.system_after_of_quiet`,
`Monitor.get?_after_of_quiet`, `Monitor.fresh_after_of_quiet`, `Monitor.carries_of_quiet`.
-/
import QuotaWatch.Proofs.Monitor.Tasks

namespace QuotaWatch

open Time

/-! ### Ticks -/

/-- What the loop does under the lock of its monitor. -/
inductive Tick where
  | poll
  | send
deriving Repr, DecidableEq

/-- The tick of the loop that an operation is; calls are none. -/
def Operation.tick? : Operation → Option Tick
  | .poll _ _ => some .poll
  | .send _ => some .send
  | _ => none

/-- The ticks among operations, each with its time. -/
def ticksAmong (bodies : List (ℕ × Operation)) : List (ℕ × Tick) :=
  bodies.filterMap fun body => body.2.tick?.map (body.1, ·)

theorem ticksAmong_append (bodies more : List (ℕ × Operation)) :
    ticksAmong (bodies ++ more) = ticksAmong bodies ++ ticksAmong more := List.filterMap_append

theorem Call.tick?_operation (call : Call) : call.operation.tick? = none := by
  cases call <;> rfl

/-- The polls among ticks. -/
def polls (ticks : List (ℕ × Tick)) : List (ℕ × Tick) := ticks.filter fun tick => tick.2 == .poll

theorem polls_append (ticks more : List (ℕ × Tick)) :
    polls (ticks ++ more) = polls ticks ++ polls more := List.filter_append _ _

/-! ### Between polls -/

/-- No poll is among the operations. -/
def Quiet (ops : List Operation) : Prop := ∀ op ∈ ops, op.tick? ≠ some .poll

theorem Quiet.left {ops more : List Operation} (h : Quiet (ops ++ more)) : Quiet ops :=
  fun op hop => h op (List.mem_append_left _ hop)

/-- The last poll in a run, and what was done behind it. -/
theorem exists_lastPoll (bodies : List (ℕ × Operation)) :
    ∃ upTo since, bodies = upTo ++ since ∧ Quiet (since.map (·.2)) ∧
      ((upTo = [] ∧ polls (ticksAmong bodies) = []) ∨
        ∃ before t a now, upTo = before ++ [(t, .poll a now)] ∧
          (polls (ticksAmong bodies)).getLast? = some (t, .poll)) := by
  induction bodies using List.reverseRecOn with
  | nil => exact ⟨[], [], rfl, List.forall_mem_nil _, Or.inl ⟨rfl, rfl⟩⟩
  | append_singleton bodies body ih =>
    obtain ⟨t, op⟩ := body
    rw [ticksAmong_append, polls_append]
    by_cases hpoll : op.tick? = some .poll
    · cases op with
      | poll a now =>
        refine ⟨_, [], (List.append_nil _).symm, List.forall_mem_nil _, Or.inr ⟨bodies, t, a, now, rfl, ?_⟩⟩
        exact List.getLast?_concat
      | _ => cases hpoll
    · obtain ⟨upTo, since, rfl, hquiet, hlast⟩ := ih
      have hnone : polls (ticksAmong [(t, op)]) = [] := by
        cases op with
        | poll a now => exact absurd rfl hpoll
        | _ => rfl
      refine ⟨upTo, since ++ [(t, op)], List.append_assoc _ _ _, ?_, ?_⟩
      · intro op' hop'
        rw [List.map_append, List.mem_append] at hop'
        rcases hop' with hop' | hop'
        · exact hquiet op' hop'
        · rw [List.map_singleton, List.mem_singleton] at hop'
          rw [hop']
          exact hpoll
      · rw [hnone, List.append_nil]
        exact hlast

namespace Monitor

variable {m : Monitor} {id : String}

theorem not_poll_of_quiet {ops : List Operation} {a : Answers} {now : Timestamp}
    (h : Quiet (ops ++ [.poll a now])) : False :=
  h _ (List.mem_append_right _ (List.mem_singleton_self _)) rfl

/-- Without a poll the record of the node stays. -/
theorem system_after_of_quiet (m : Monitor) {ops : List Operation} (h : Quiet ops) :
    (m.after ops).system = m.system := by
  induction ops using List.reverseRecOn with
  | nil => rfl
  | append_singleton ops op ih =>
    rw [after_concat]
    rcases (m.after ops).system_step op with ⟨a, now, rfl, -⟩ | ⟨-, he⟩
    · exact (not_poll_of_quiet h).elim
    · rw [he, ih h.left]

/-- Nothing but a poll touches a record that stays registered. -/
theorem replayStep_of_quiet {op : Operation} (h : op.tick? ≠ some .poll) (watched : Bool)
    (i : Instance) : i.replayStep watched id op = i := by
  cases op with
  | poll a now => exact absurd rfl h
  | _ => rfl

/-- Without a poll the record of an instance stays, unless its registration changes. -/
theorem get?_after_of_quiet (m : Monitor) {ops : List Operation} (h : Quiet ops)
    (hsame : changes id m ops = []) : (m.after ops).instances.get? id = m.instances.get? id := by
  induction ops using List.reverseRecOn with
  | nil => rfl
  | append_singleton ops op ih =>
    have hop : op.tick? ≠ some .poll := h op (List.mem_append_right _ (List.mem_singleton_self op))
    rw [changes_concat, List.append_eq_nil_iff] at hsame
    rw [after_concat]
    rcases (m.after ops).change_cases op id with ⟨-, hchanged, -⟩ | ⟨-, -, -, hchanged, -⟩ | ⟨-, he⟩
    · rw [hchanged] at hsame
      cases hsame.2
    · rw [hchanged] at hsame
      cases hsame.2
    · simp only [replayStep_of_quiet hop, Option.map_id'] at he
      rw [he, ih h.left hsame.1]

/-- Without a poll the record of an instance is fresh behind a change of its registration. -/
theorem fresh_after_of_quiet (m : Monitor) {ops : List Operation} (h : Quiet ops)
    (hchanged : changes id m ops ≠ []) {i : Instance}
    (hi : (m.after ops).instances.get? id = some i) :
    ∃ params processors, .start id params ∈ ops ∧
      i = Instance.fresh params processors m.settings.window := by
  induction ops using List.reverseRecOn with
  | nil => exact absurd rfl hchanged
  | append_singleton ops op ih =>
    have hmem : op ∈ ops ++ [op] := List.mem_append_right _ (List.mem_singleton_self op)
    rw [after_concat] at hi
    rcases (m.after ops).change_cases op id with ⟨-, -, he⟩ | ⟨params, i', rfl, -, -, hreg, he⟩ |
      ⟨hnone, he⟩
    · rw [he] at hi
      cases hi
    · rw [he] at hi
      cases hi
      obtain ⟨-, processors, -, rfl⟩ := registered?_eq_some hreg
      refine ⟨params, processors, hmem, ?_⟩
      rw [(m.after_sameMake ops).settings]
    · rw [changes_concat, hnone, List.append_nil] at hchanged
      simp only [replayStep_of_quiet (h op hmem), Option.map_id'] at he
      obtain ⟨params, processors, hstart, hfresh⟩ := ih h.left hchanged (he.symm.trans hi)
      exact ⟨params, processors, List.mem_append_left _ hstart, hfresh⟩

/-- A snapshot carries what a monitor held when these operations were still to come. -/
structure Carries (left : Monitor) (since : List Operation) (ids : List String) (s : Snapshot) :
    Prop where
  node : s.node = left.system.reading
  /-- An instance whose registration has not changed since then is shown as it was. -/
  kept : ∀ id, changes id left since = [] → entryIn (.workload id) ids s =
    (left.instances.get? id).map fun i => (some i.ident, i.entity.reading)
  /-- Of an instance that was registered since then nothing is known yet. -/
  registered : ∀ id shown, changes id left since ≠ [] → entryIn (.workload id) ids s = some shown →
    ∃ params, .start id params ∈ since ∧
      shown = (some params.ident, Reading.zero (params.partitions.map (·.name)))

/-- A snapshot carries what the last poll before it left. -/
theorem carries_of_quiet (left : Monitor) {since : List Operation} (h : Quiet since)
    (now : Timestamp) : Carries left since (left.after since).instances.ids
      ((left.after since).snapshot now) := by
  refine ⟨congrArg Entity.reading (left.system_after_of_quiet h), fun id hsame => ?_,
    fun id shown hchanged hshown => ?_⟩
  · rw [entryIn_snapshot, left.get?_after_of_quiet h hsame]
  · rw [entryIn_snapshot, Option.map_eq_some_iff] at hshown
    obtain ⟨i, hi, rfl⟩ := hshown
    obtain ⟨params, processors, hstart, rfl⟩ := left.fresh_after_of_quiet h hchanged hi
    exact ⟨params, hstart, rfl⟩

end Monitor

end QuotaWatch
