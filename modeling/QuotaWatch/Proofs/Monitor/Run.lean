/-
# Runs of a monitor

Polls, sends, starts, stops and queries are each done under the lock of the
monitor, so a run is a list of operations. The node and the instances under
their ids are the entities that a run measures. What a run has shown of an
entity is collected poll by poll from its registration on, by `Monitor.since`;
stopping the instance drops it.

An operation leaves the record of an instance alone, polls it, registers it
afresh or takes it out (`Monitor.get?_step`), so a property of a record and of
what was collected for it holds in every run if it holds of a fresh record and
a poll keeps it (`Monitor.since_workload`, `Monitor.since_node`).

Key definitions: `Operation`, `Monitor.step`, `Monitor.after`, `Monitor.effects`,
`EntityId`, `Monitor.entity?`, `Monitor.since`, `Monitor.registeredWith`.
Key theorems: `Monitor.after_sameMake`, `Monitor.get?_step`, `Monitor.entity?_step`,
`Monitor.since_node`, `Monitor.since_workload`.
-/
import Mathlib.Data.List.Induction
import QuotaWatch.Monitor.Build
import QuotaWatch.Monitor.Lifecycle

namespace QuotaWatch

open Time

/-- What a monitor does under its lock. -/
inductive Operation where
  | poll (answers : Answers) (now : Timestamp)
  | send (now : Timestamp)
  | start (id : String) (params : InstanceParams)
  | stop (id : String)
  /-- A question about the present state: an average, the ids, the names of the processors. -/
  | query

/-- The node, or the instance under an id. -/
inductive EntityId where
  | node
  | workload (id : String)
deriving Repr, DecidableEq

namespace Monitor

/-- Do one operation; gives its effects. -/
def step (m : Monitor) : Operation → Monitor × List Event
  | .poll a now => m.poll a now
  | .send now => (m, m.sendEvents now)
  | .start id params => ((m.start id params).monitor, (m.start id params).events)
  | .stop id => ((m.stop id).monitor, (m.stop id).events)
  | .query => (m, [])

/-- The monitor behind a run. -/
def after (m : Monitor) : List Operation → Monitor
  | [] => m
  | op :: ops => (m.step op).1.after ops

/-- The effects of a run, in order. -/
def effects (m : Monitor) : List Operation → List Event
  | [] => []
  | op :: ops => (m.step op).2 ++ (m.step op).1.effects ops

theorem after_append : ∀ (m : Monitor) (ops more : List Operation),
    m.after (ops ++ more) = (m.after ops).after more
  | _, [], _ => rfl
  | m, op :: ops, more => after_append (m.step op).1 ops more

theorem after_concat (m : Monitor) (ops : List Operation) (op : Operation) :
    m.after (ops ++ [op]) = ((m.after ops).step op).1 := after_append m ops [op]

/-! ### What stays as it was built -/

/-- Two monitors differ in their records alone. -/
structure SameMake (m m' : Monitor) : Prop where
  nodeId : m'.nodeId = m.nodeId
  settings : m'.settings = m.settings
  capacity : m'.capacity = m.capacity
  watchesTraffic : m'.watchesTraffic = m.watchesTraffic
  sendsAlerts : m'.sendsAlerts = m.sendsAlerts

theorem SameMake.refl (m : Monitor) : SameMake m m := ⟨rfl, rfl, rfl, rfl, rfl⟩

theorem SameMake.symm {m m' : Monitor} (h : SameMake m m') : SameMake m' m :=
  ⟨h.nodeId.symm, h.settings.symm, h.capacity.symm, h.watchesTraffic.symm, h.sendsAlerts.symm⟩

theorem SameMake.trans {m m' m'' : Monitor} (h : SameMake m m') (h' : SameMake m' m'') :
    SameMake m m'' :=
  ⟨h'.nodeId.trans h.nodeId, h'.settings.trans h.settings, h'.capacity.trans h.capacity,
    h'.watchesTraffic.trans h.watchesTraffic, h'.sendsAlerts.trans h.sendsAlerts⟩

/-! ### One operation -/

/-- A start leaves the monitor as it is, or puts a fresh record under an id that had none. -/
theorem start_cases (m : Monitor) (id : String) (params : InstanceParams) :
    (m.start id params).monitor = m ∨
      m.instances.get? id = none ∧ ∃ processors,
        (m.buildInstance id params).result = .ok processors ∧
        (m.start id params).monitor =
          { m with
            instances :=
              m.instances.insert id (Instance.fresh params processors m.settings.window) } := by
  unfold start
  split
  · exact Or.inl rfl
  · split
    · exact Or.inl rfl
    · rename_i hknown
      dsimp only
      split
      · exact Or.inl rfl
      · rename_i processors hbuilt
        refine Or.inr ⟨?_, processors, hbuilt, rfl⟩
        simpa [Registry.contains] using hknown

/-- A stop takes the id out of the registry, and does nothing else. -/
theorem stop_monitor (m : Monitor) (id : String) :
    SameMake m (m.stop id).monitor ∧ (m.stop id).monitor.system = m.system ∧
      ∀ other, (m.stop id).monitor.instances.get? other =
        if other = id then none else m.instances.get? other := by
  unfold stop
  split
  · exact ⟨⟨rfl, rfl, rfl, rfl, rfl⟩, rfl, fun other => Registry.get?_erase _ _ _⟩
  · rename_i hknown
    refine ⟨SameMake.refl m, rfl, fun other => ?_⟩
    split
    · rename_i he
      simpa [Registry.contains, he] using hknown
    · rfl

theorem step_sameMake (m : Monitor) (op : Operation) : SameMake m (m.step op).1 := by
  cases op with
  | poll a now => exact ⟨rfl, rfl, rfl, rfl, rfl⟩
  | send now => exact SameMake.refl m
  | start id params =>
    rcases m.start_cases id params with he | ⟨-, processors, -, he⟩
    · simpa only [step, he] using SameMake.refl m
    · simp only [step, he]
      exact ⟨rfl, rfl, rfl, rfl, rfl⟩
  | stop id => exact (m.stop_monitor id).1
  | query => exact SameMake.refl m

theorem after_sameMake : ∀ (m : Monitor) (ops : List Operation), SameMake m (m.after ops)
  | m, [] => SameMake.refl m
  | m, op :: ops => (m.step_sameMake op).trans (after_sameMake (m.step op).1 ops)

/-- Nothing but a poll changes the record of the node. -/
theorem system_step (m : Monitor) (op : Operation) :
    (∃ a now, op = .poll a now ∧ (m.step op).1.system = m.systemPolled a now) ∨
      (∀ a now, op ≠ .poll a now) ∧ (m.step op).1.system = m.system := by
  cases op with
  | poll a now => exact Or.inl ⟨a, now, rfl, rfl⟩
  | send now => exact Or.inr ⟨by simp, rfl⟩
  | start id params =>
    refine Or.inr ⟨by simp, ?_⟩
    rcases m.start_cases id params with he | ⟨-, processors, -, he⟩ <;> simp only [step, he]
  | stop id => exact Or.inr ⟨by simp, (m.stop_monitor id).2.1⟩
  | query => exact Or.inr ⟨by simp, rfl⟩

/-- What an operation does to the record under an id: it is polled, taken out,
registered afresh where there was none, or left alone. -/
theorem get?_step (m : Monitor) (op : Operation) (id : String) :
    (∃ a now, op = .poll a now ∧ (m.step op).1.instances.get? id =
        (m.instances.get? id).map fun i => i.poll a m.watchesTraffic id now) ∨
    (op = .stop id ∧ (m.step op).1.instances.get? id = none) ∨
    (∃ params processors, op = .start id params ∧ m.instances.get? id = none ∧
      (m.buildInstance id params).result = .ok processors ∧
      (m.step op).1.instances.get? id =
        some (Instance.fresh params processors m.settings.window)) ∨
    ((∀ a now, op ≠ .poll a now) ∧ op ≠ .stop id ∧
      (m.step op).1.instances.get? id = m.instances.get? id) := by
  cases op with
  | poll a now => exact Or.inl ⟨a, now, rfl, get?_poll m a now id⟩
  | send now => exact Or.inr (Or.inr (Or.inr ⟨by simp, by simp, rfl⟩))
  | start other params =>
    refine Or.inr (Or.inr ?_)
    rcases m.start_cases other params with he | ⟨hnone, processors, hbuilt, he⟩
    · exact Or.inr ⟨by simp, by simp, by simp only [step, he]⟩
    · by_cases hid : id = other
      · subst hid
        refine Or.inl ⟨params, processors, rfl, hnone, hbuilt, ?_⟩
        simp [step, he]
      · exact Or.inr ⟨by simp, by simp, by simp [step, he, hid]⟩
  | stop other =>
    have hget := (m.stop_monitor other).2.2 id
    by_cases hid : id = other
    · subst hid
      exact Or.inr (Or.inl ⟨rfl, by simpa [step] using hget⟩)
    · refine Or.inr (Or.inr (Or.inr ⟨by simp, by simpa using fun e => hid e.symm, ?_⟩))
      simpa [step, hid] using hget
  | query => exact Or.inr (Or.inr (Or.inr ⟨by simp, by simp, rfl⟩))

/-! ### What a run shows of an entity -/

/-- What a monitor holds of an entity, if it is there. -/
def entity? (m : Monitor) : EntityId → Option Entity
  | .node => some m.system
  | .workload id => (m.instances.get? id).map (·.entity)

/-- An entity that is there behind an operation was polled, registered afresh, or left alone. -/
theorem entity?_step {m : Monitor} {op : Operation} {entity : EntityId} {e : Entity}
    (he : (m.step op).1.entity? entity = some e) :
    (∃ a now before f, op = .poll a now ∧ m.entity? entity = some before ∧
        e = before.poll f now) ∨
      (∃ id params processors, (m.buildInstance id params).result = .ok processors ∧
        e = (Instance.fresh params processors m.settings.window).entity) ∨
      (∀ a now, op ≠ .poll a now) ∧ m.entity? entity = some e := by
  cases entity with
  | node =>
    rcases m.system_step op with ⟨a, now, rfl, hsystem⟩ | ⟨hpoll, hsystem⟩
    · cases he
      exact Or.inl ⟨a, now, m.system, m.systemFetches a, rfl, rfl, hsystem⟩
    · exact Or.inr (Or.inr ⟨hpoll, (congrArg some hsystem).symm.trans he⟩)
  | workload id =>
    obtain ⟨i, hi, rfl⟩ := Option.map_eq_some_iff.mp he
    rcases m.get?_step op id with ⟨a, now, rfl, hget⟩ | ⟨rfl, hget⟩ |
      ⟨params, processors, rfl, -, hbuilt, hget⟩ | ⟨hpoll, -, hget⟩
    · rw [hget] at hi
      obtain ⟨before, hbefore, rfl⟩ := Option.map_eq_some_iff.mp hi
      exact Or.inl ⟨a, now, before.entity, _, rfl, Option.map_eq_some_iff.mpr ⟨_, hbefore, rfl⟩,
        rfl⟩
    · rw [hget] at hi
      cases hi
    · rw [hget] at hi
      cases hi
      exact Or.inr (Or.inl ⟨id, params, processors, hbuilt, rfl⟩)
    · rw [hget] at hi
      exact Or.inr (Or.inr ⟨hpoll, Option.map_eq_some_iff.mpr ⟨i, hi, rfl⟩⟩)

section Since

variable {α : Type} (entity : EntityId) (look : Monitor → Answers → Timestamp → Option α)

/-- What is collected for an entity behind one more operation. -/
def note (m : Monitor) (seen : List α) : Operation → List α
  | .poll a now => seen ++ (look m a now).toList
  | .stop id => if entity = .workload id then [] else seen
  | _ => seen

/-- What is collected for an entity in a run, behind what was collected before it. -/
def sinceFrom (seen : List α) (m : Monitor) : List Operation → List α
  | [] => seen
  | op :: ops => sinceFrom (note entity look m seen op) (m.step op).1 ops

/-- What `look` shows at each poll of a run since the entity was registered. A
stop of the entity drops it. -/
def since (m : Monitor) (ops : List Operation) : List α := sinceFrom entity look [] m ops

theorem sinceFrom_append : ∀ (seen : List α) (m : Monitor) (ops more : List Operation),
    sinceFrom entity look seen m (ops ++ more) =
      sinceFrom entity look (sinceFrom entity look seen m ops) (m.after ops) more
  | _, _, [], _ => rfl
  | seen, m, op :: ops, more => sinceFrom_append (note entity look m seen op) (m.step op).1 ops more

theorem since_concat (m : Monitor) (ops : List Operation) (op : Operation) :
    since entity look m (ops ++ [op]) =
      note entity look (m.after ops) (since entity look m ops) op :=
  sinceFrom_append entity look [] m ops [op]

end Since

/-- The parameters that an instance was registered with, behind one more operation. -/
def noteStart (id : String) (m : Monitor) (params? : Option InstanceParams) :
    Operation → Option InstanceParams
  | .start other params =>
    if other = id ∧ m.instances.get? id = none ∧
        ((m.start id params).monitor.instances.get? id).isSome = true then some params
    else params?
  | .stop other => if other = id then none else params?
  | _ => params?

/-- The parameters of the start that registered an instance, behind those known before a run. -/
def registeredFrom (id : String) (params? : Option InstanceParams) (m : Monitor) :
    List Operation → Option InstanceParams
  | [] => params?
  | op :: ops => registeredFrom id (noteStart id m params? op) (m.step op).1 ops

/-- The parameters of the start that registered the instance under an id, if it has
not been stopped since. -/
def registeredWith (id : String) (m : Monitor) (ops : List Operation) : Option InstanceParams :=
  registeredFrom id none m ops

theorem registeredFrom_append (id : String) : ∀ (params? : Option InstanceParams) (m : Monitor)
    (ops more : List Operation), registeredFrom id params? m (ops ++ more) =
      registeredFrom id (registeredFrom id params? m ops) (m.after ops) more
  | _, _, [], _ => rfl
  | params?, m, op :: ops, more =>
    registeredFrom_append id (noteStart id m params? op) (m.step op).1 ops more

theorem registeredWith_concat (id : String) (m : Monitor) (ops : List Operation)
    (op : Operation) : registeredWith id m (ops ++ [op]) =
      noteStart id (m.after ops) (registeredWith id m ops) op :=
  registeredFrom_append id none m ops [op]

/-! ### Properties of a record and of what was collected for it -/

section Induction

variable {α : Type} {look : Monitor → Answers → Timestamp → Option α} {m : Monitor} {id : String}

/-- Nothing is collected where there is no poll. -/
theorem note_of_not_poll {entity : EntityId} {op : Operation} (seen : List α)
    (hpoll : ∀ a now, op ≠ .poll a now) (hstop : ∀ id, entity = .workload id → op ≠ .stop id) :
    note entity look m seen op = seen := by
  cases op with
  | poll a now => exact absurd rfl (hpoll a now)
  | stop id => exact if_neg fun he => hstop id he rfl
  | send now => rfl
  | start id params => rfl
  | query => rfl

/-- A start that leaves the record under an id alone registers nothing there. -/
theorem noteStart_of_unchanged {op : Operation} (params? : Option InstanceParams)
    (hstop : op ≠ .stop id) (hget : (m.step op).1.instances.get? id = m.instances.get? id) :
    noteStart id m params? op = params? := by
  cases op with
  | start other params =>
    refine if_neg ?_
    rintro ⟨rfl, hnone, hsome⟩
    rw [step, hnone] at hget
    rw [hget] at hsome
    cases hsome
  | stop other => exact if_neg fun he => hstop (congrArg Operation.stop he)
  | poll a now => rfl
  | send now => rfl
  | query => rfl

/-- What holds of the node as it was built and is kept by polls holds in every run. -/
theorem since_node {P : Entity → List α → Prop} {shown : Monitor → Answers → Timestamp → α}
    (looks : ∀ m' a now, look m' a now = some (shown m' a now)) (initial : P m.system [])
    (polled : ∀ m' a now seen, SameMake m m' → P m'.system seen →
      P (m'.systemPolled a now) (seen ++ [shown m' a now]))
    (ops : List Operation) : P (m.after ops).system (since .node look m ops) := by
  induction ops using List.reverseRecOn with
  | nil => exact initial
  | append_singleton ops op ih =>
    rw [after_concat, since_concat]
    rcases (m.after ops).system_step op with ⟨a, now, rfl, he⟩ | ⟨hpoll, he⟩
    · rw [he, note, looks]
      exact polled _ a now _ (m.after_sameMake ops) ih
    · rw [he, note_of_not_poll _ hpoll fun id hid => by cases hid]
      exact ih

section Workload

variable {P : InstanceParams → Instance → List α → Prop}
  {shown : Monitor → Answers → Timestamp → Instance → α}
  (looks : ∀ m' a now, look m' a now = (m'.instances.get? id).map (shown m' a now))
  (absent : m.instances.get? id = none)
  (fresh : ∀ m' params processors, SameMake m m' →
    (m'.buildInstance id params).result = .ok processors →
    P params (Instance.fresh params processors m'.settings.window) [])
  (polled : ∀ m' a now params i seen, SameMake m m' → P params i seen →
    P params (i.poll a m'.watchesTraffic id now) (seen ++ [shown m' a now i]))
include looks absent fresh polled

theorem since_workload_or (ops : List Operation) :
    ((m.after ops).instances.get? id = none ∧ since (.workload id) look m ops = []) ∨
      ∃ params i, (m.after ops).instances.get? id = some i ∧
        registeredWith id m ops = some params ∧ P params i (since (.workload id) look m ops) := by
  induction ops using List.reverseRecOn with
  | nil => exact Or.inl ⟨absent, rfl⟩
  | append_singleton ops op ih =>
    have hmake := m.after_sameMake ops
    rw [after_concat, since_concat, registeredWith_concat]
    rcases (m.after ops).get?_step op id with ⟨a, now, rfl, he⟩ | ⟨rfl, he⟩ |
      ⟨params, processors, rfl, hnone, hbuilt, he⟩ | ⟨hpoll, hstop, he⟩
    · -- a poll
      rw [he, note, looks]
      rcases ih with ⟨hnone, hseen⟩ | ⟨params, i, hget, hreg, hP⟩
      · rw [hnone, hseen]
        exact Or.inl ⟨rfl, rfl⟩
      · rw [hget]
        exact Or.inr ⟨params, _, rfl, hreg, polled _ a now params i _ hmake hP⟩
    · -- a stop
      exact Or.inl ⟨he, if_pos rfl⟩
    · -- a start that registers
      rcases ih with ⟨-, hseen⟩ | ⟨_, _, hget, -⟩
      · refine Or.inr ⟨params, _, he, ?_, ?_⟩
        · refine if_pos ⟨rfl, hnone, ?_⟩
          rw [step] at he
          rw [he, Option.isSome_some]
        · simp only [note, hseen]
          exact fresh _ params processors hmake hbuilt
      · rw [hnone] at hget
        cases hget
    · -- an operation on something else
      rw [he, note_of_not_poll _ hpoll fun other hid => by cases hid; exact hstop,
        noteStart_of_unchanged _ hstop he]
      exact ih

/-- What holds of a record as it is registered and is kept by polls holds in every
run, of every record with the parameters of the start that registered it. -/
theorem since_workload (ops : List Operation) {i : Instance}
    (hi : (m.after ops).instances.get? id = some i) :
    ∃ params, registeredWith id m ops = some params ∧
      P params i (since (.workload id) look m ops) := by
  rcases since_workload_or looks absent fresh polled ops with
    ⟨hnone, -⟩ | ⟨params, i', hi', hreg, hP⟩
  · rw [hnone] at hi
    cases hi
  · rw [hi'] at hi
    cases hi
    exact ⟨params, hreg, hP⟩

end Workload

end Induction

end Monitor

end QuotaWatch
