/-
# Where a record comes from

An operation changes the registration of an id, or it leaves the record there alone
but for a poll (`Monitor.change_cases`). So behind a run an id is registered exactly
if the last operation that changed its registration was a start. What is registered
then is the record of this one start, replayed through the polls behind it
(`Monitor.origin`), and what does not move with a poll it has from this start
(`Instance.IsFrom.replay`).

A start under a registered id succeeds and changes nothing. Any other start succeeds
exactly if it registers a record, and changes nothing if it fails.

Key definitions: `Instance.replay`, `Instance.IsFrom`, `Monitor.changes`.
Key theorems: `Instance.IsFrom.replay`, `Monitor.change_cases`, `Monitor.origin`,
`Monitor.record_of_start`, `Monitor.start_of_registered`, `Monitor.result_start_of_absent`,
`Monitor.start_error`.
-/
import QuotaWatch.Proofs.Monitor.Rules
import QuotaWatch.Proofs.Window.Retention

namespace QuotaWatch

open Time

/-! ### Records through polls -/

/-- A poll leaves the retention of a window as it is. -/
theorem Entity.retention_poll (e : Entity) (f : Fetches) (now : Timestamp) :
    (e.poll f now).window.map (·.retention) = e.window.map (·.retention) := by
  unfold poll
  dsimp only
  split
  · rw [Option.map_map]
    exact congrArg (e.window.map ·) (funext fun w => w.retention_push _)
  · rfl

/-- What a window holds behind a poll is the reading of this poll, or it was there before. -/
theorem Entity.mem_window_poll {e : Entity} {f : Fetches} {now : Timestamp} {w : Window}
    {r : Reading} (hw : (e.poll f now).window = some w) (hr : r ∈ w.readings) :
    r = e.reading.refresh f now ∨ ∃ before, e.window = some before ∧ r ∈ before.readings := by
  simp only [Entity.poll] at hw
  split at hw
  · obtain ⟨before, hbefore, rfl⟩ := Option.map_eq_some_iff.mp hw
    rcases List.mem_append.mp ((before.readings_push_sublist _).subset hr) with hr | hr
    · exact Or.inr ⟨before, hbefore, hr⟩
    · exact Or.inl (List.mem_singleton.mp hr)
  · exact Or.inr ⟨w, hw, hr⟩

namespace Instance

/-- The record of an instance behind an operation that does not change its registration. -/
def replayStep (watched : Bool) (id : String) (i : Instance) : Operation → Instance
  | .poll a now => i.poll a watched id now
  | _ => i

/-- The record of an instance behind the polls of a run. -/
def replay (watched : Bool) (id : String) (i : Instance) (ops : List Operation) : Instance :=
  ops.foldl (replayStep watched id) i

theorem replay_concat (watched : Bool) (id : String) (i : Instance) (ops : List Operation)
    (op : Operation) :
    i.replay watched id (ops ++ [op]) = (i.replay watched id ops).replayStep watched id op := by
  rw [replay, List.foldl_concat, replay]

/-- The record has all that does not move with a poll from these parameters and processors. -/
structure IsFrom (i : Instance) (params : InstanceParams) (processors : List Processor)
    (retention : Option Span) : Prop where
  ident : i.ident = params.ident
  uid : i.uid = params.uid
  gid : i.gid = params.gid
  partitions : i.partitions = params.partitions
  processors : i.entity.processors.map (·.afresh) = processors
  window : i.entity.window.map (·.retention) = retention

/-- A poll moves only what moves with a poll. -/
theorem IsFrom.poll {i : Instance} {params : InstanceParams} {processors : List Processor}
    {retention : Option Span} (h : i.IsFrom params processors retention) (a : Answers)
    (watched : Bool) (id : String) (now : Timestamp) :
    (i.poll a watched id now).IsFrom params processors retention where
  ident := h.ident
  uid := h.uid
  gid := h.gid
  partitions := h.partitions
  processors := by
    rw [← h.processors]
    simp only [Instance.poll, Entity.poll, List.map_map, Function.comp_def, Processor.afresh_check]
  window := by
    rw [← h.window, Instance.poll, Entity.retention_poll]

theorem isFrom_fresh (params : InstanceParams) {processors : List Processor}
    (hfresh : ∀ p ∈ processors, p.IsFresh) (retention : Option Span) :
    (Instance.fresh params processors retention).IsFrom params processors retention where
  ident := rfl
  uid := rfl
  gid := rfl
  partitions := rfl
  processors := by
    show processors.map (·.afresh) = processors
    rw [List.map_congr_left fun p hp => Processor.afresh_of_isFresh (hfresh p hp), List.map_id']
  window := by cases retention <;> rfl

/-- However many polls there have been, a record has from its start what does not move. -/
theorem IsFrom.replay {i : Instance} {params : InstanceParams} {processors : List Processor}
    {retention : Option Span} (h : i.IsFrom params processors retention) (watched : Bool)
    (id : String) (ops : List Operation) :
    (i.replay watched id ops).IsFrom params processors retention := by
  induction ops using List.reverseRecOn with
  | nil => exact h
  | append_singleton ops op ih =>
    rw [replay_concat]
    cases op with
    | poll a now => exact ih.poll a watched id now
    | _ => exact ih

end Instance

/-! ### Changes of a registration -/

/-- The operation starts or stops the instance under an id. -/
def Operation.isAbout (id : String) : Operation → Bool
  | .start other _ | .stop other => other == id
  | _ => false

namespace Monitor

variable {m : Monitor} {id : String}

/-- The operation, if it starts or stops the instance under an id and changes what ids are
registered. -/
def changedBy (id : String) (m : Monitor) (op : Operation) : List Operation :=
  if op.isAbout id ∧ (m.step op).1.instances.ids ≠ m.instances.ids then [op] else []

/-- The operations of a run that changed the registration of an id, in order. -/
def changes (id : String) (m : Monitor) : List Operation → List Operation
  | [] => []
  | op :: ops => changedBy id m op ++ changes id (m.step op).1 ops

theorem changes_concat (id : String) (op : Operation) : ∀ (m : Monitor) (ops : List Operation),
    changes id m (ops ++ [op]) = changes id m ops ++ changedBy id (m.after ops) op
  | m, [] => List.append_nil _
  | m, first :: ops => by
    rw [List.cons_append, changes, changes_concat id op (m.step first).1 ops, changes, after,
      List.append_assoc]

/-- An operation that registers or takes out the instance under an id changes its registration. -/
theorem changedBy_of_isSome_ne {op : Operation} (habout : op.isAbout id = true)
    (h : ((m.step op).1.instances.get? id).isSome ≠ (m.instances.get? id).isSome) :
    changedBy id m op = [op] := by
  refine if_pos ⟨habout, fun hids => h ?_⟩
  rw [Bool.eq_iff_iff, ← Registry.mem_ids, ← Registry.mem_ids, hids]

/-- An operation that does neither changes no registration. -/
theorem changedBy_of_isSome_eq {op : Operation}
    (h : ((m.step op).1.instances.get? id).isSome = (m.instances.get? id).isSome) :
    changedBy id m op = [] := by
  refine if_neg ?_
  rintro ⟨habout, hids⟩
  apply hids
  cases op with
  | start other params =>
    obtain rfl : other = id := beq_iff_eq.mp habout
    rcases m.start_cases other params with he | ⟨hnone, processors, -, he⟩
    · rw [step, he]
    · rw [step, he, hnone, Registry.get?_insert, if_pos rfl] at h
      cases h
  | stop other =>
    obtain rfl : other = id := beq_iff_eq.mp habout
    rw [step, (m.stop_monitor other).2.2, if_pos rfl] at h
    have hcontains : m.instances.contains other = false := h.symm
    rw [step, stop_unknown hcontains]
  | _ => cases habout

/-- What a start registers. -/
theorem registered?_eq_some {params : InstanceParams} {i : Instance}
    (h : m.registered? id params = some i) :
    isInstanceId id = true ∧ ∃ processors,
      implied id params.rules m.capacity (params.partitions.map (·.name)) = .ok processors ∧
        i = Instance.fresh params processors m.settings.window := by
  unfold registered? at h
  split at h
  · rename_i hid
    rw [buildInstance_result] at h
    cases himplied : implied id params.rules m.capacity (params.partitions.map (·.name)) with
    | error fault =>
      rw [himplied] at h
      cases h
    | ok processors =>
      rw [himplied] at h
      cases h
      exact ⟨hid, processors, rfl, rfl⟩
  · cases h

/-- What a start registers does not depend on what has been done before it. -/
theorem registered?_after (m : Monitor) (ops : List Operation) (id : String)
    (params : InstanceParams) : (m.after ops).registered? id params = m.registered? id params :=
  registered?_congr (m.after_sameMake ops) id params

/-- **What an operation does to the registration of an id**: it takes out the instance,
registers one where there was none, or leaves the record there alone but for a poll. -/
theorem change_cases (m : Monitor) (op : Operation) (id : String) :
    (op = .stop id ∧ changedBy id m op = [op] ∧ (m.step op).1.instances.get? id = none) ∨
    (∃ params i, op = .start id params ∧ changedBy id m op = [op] ∧
      m.instances.get? id = none ∧ m.registered? id params = some i ∧
      (m.step op).1.instances.get? id = some i) ∨
    (changedBy id m op = [] ∧ (m.step op).1.instances.get? id =
      (m.instances.get? id).map fun i => i.replayStep m.watchesTraffic id op) := by
  rcases m.get?_step op id with ⟨a, now, rfl, he⟩ | ⟨rfl, he⟩ |
    ⟨params, processors, rfl, hnone, -, he⟩ | ⟨hpoll, -, he⟩
  · -- a poll
    refine Or.inr (Or.inr ⟨changedBy_of_isSome_eq ?_, he⟩)
    rw [he, Option.isSome_map]
  · -- a stop
    cases hlive : m.instances.get? id with
    | none =>
      refine Or.inr (Or.inr ⟨changedBy_of_isSome_eq ?_, he⟩)
      rw [he, hlive]
    | some i =>
      refine Or.inl ⟨rfl, changedBy_of_isSome_ne (beq_self_eq_true id) ?_, he⟩
      rw [he, hlive]
      exact Bool.noConfusion
  · -- a start that registers
    have hregistered := m.get?_start id params
    rw [hnone, Option.none_or] at hregistered
    rw [step] at he
    refine Or.inr (Or.inl ⟨params, _, rfl, ?_, hnone, hregistered.symm.trans he, he⟩)
    refine changedBy_of_isSome_ne (beq_self_eq_true id) ?_
    rw [step, he, hnone]
    exact Bool.noConfusion
  · -- an operation that leaves the record alone
    refine Or.inr (Or.inr ⟨changedBy_of_isSome_eq (by rw [he]), ?_⟩)
    have hreplay : (fun i : Instance => i.replayStep m.watchesTraffic id op) = fun i => i := by
      funext i
      cases op with
      | poll a now => exact absurd rfl (hpoll a now)
      | _ => rfl
    rw [he, hreplay, Option.map_id']

/-- **Where a record comes from.** Behind a run an id is registered exactly if the last
operation that changed its registration was a start. Then its record is the one that
this start registered, replayed through the polls behind it. -/
theorem origin (absent : m.instances.get? id = none) (ops : List Operation) :
    ((m.after ops).instances.get? id = none ∧
      ∀ params, (changes id m ops).getLast? ≠ some (.start id params)) ∨
    ∃ before params behind i, ops = before ++ .start id params :: behind ∧
      (changes id m ops).getLast? = some (.start id params) ∧
      changes id (m.after (before ++ [.start id params])) behind = [] ∧
      (m.after before).instances.get? id = none ∧ m.registered? id params = some i ∧
      (m.after ops).instances.get? id = some (i.replay m.watchesTraffic id behind) := by
  induction ops using List.reverseRecOn with
  | nil =>
    refine Or.inl ⟨absent, fun params h => ?_⟩
    cases h
  | append_singleton ops op ih =>
    rw [after_concat, changes_concat]
    rcases (m.after ops).change_cases op id with ⟨rfl, hchanged, he⟩ |
      ⟨params, i, rfl, hchanged, hnone, hregistered, he⟩ | ⟨hchanged, he⟩
    · -- taken out
      refine Or.inl ⟨he, fun params h => ?_⟩
      rw [hchanged, List.getLast?_concat] at h
      cases h
    · -- registered
      rw [registered?_after] at hregistered
      refine Or.inr ⟨ops, params, [], i, rfl, ?_, rfl, hnone, hregistered, he⟩
      rw [hchanged, List.getLast?_concat]
    · -- left alone but for a poll
      rw [hchanged, List.append_nil, he, (m.after_sameMake ops).watchesTraffic]
      rcases ih with ⟨hnone, hlast⟩ |
        ⟨before, params, behind, i, hops, hlast, hbehind, hnone, hregistered, hget⟩
      · rw [hnone]
        exact Or.inl ⟨rfl, hlast⟩
      · refine Or.inr ⟨before, params, behind ++ [op], i, ?_, hlast, ?_, hnone, hregistered, ?_⟩
        · rw [hops, List.append_assoc, List.cons_append]
        · have hafter : (m.after (before ++ [.start id params])).after behind = m.after ops := by
            rw [hops, ← after_append, List.append_assoc, List.singleton_append]
          rw [changes_concat, hbehind, hafter, hchanged, List.append_nil]
        · rw [hget, Instance.replay_concat, Option.map_some]

/-- What is registered is what was started last. -/
theorem mem_ids_after (absent : m.instances.get? id = none) (ops : List Operation) :
    id ∈ (m.after ops).instances.ids ↔
      ∃ params, (changes id m ops).getLast? = some (.start id params) := by
  rw [Registry.mem_ids]
  rcases origin absent ops with ⟨hnone, hlast⟩ | ⟨before, params, behind, i, -, hlast, -, -, -, hget⟩
  · rw [hnone]
    refine ⟨fun h => ?_, fun ⟨params, h⟩ => absurd h (hlast params)⟩
    cases h
  · rw [hget]
    exact ⟨fun _ => ⟨params, hlast⟩, fun _ => rfl⟩

/-- What is registered has an id that names a directory. -/
theorem isInstanceId_of_mem_ids (absent : m.instances.get? id = none) {ops : List Operation}
    (h : id ∈ (m.after ops).instances.ids) : isInstanceId id = true := by
  rcases origin absent ops with ⟨hnone, -⟩ | ⟨before, params, behind, i, -, -, -, -, hstart, -⟩
  · rw [Registry.mem_ids, hnone] at h
    cases h
  · exact (registered?_eq_some hstart).1

/-- A record is that of the start that changed its registration last: fresh from the
parameters of this start and moved by the polls since then. -/
theorem record_of_start (absent : m.instances.get? id = none) {ops : List Operation} {i : Instance}
    (hi : (m.after ops).instances.get? id = some i) :
    ∃ before params behind processors, ops = before ++ .start id params :: behind ∧
      (changes id m ops).getLast? = some (.start id params) ∧
      changes id (m.after (before ++ [.start id params])) behind = [] ∧
      (m.after before).instances.get? id = none ∧
      implied id params.rules m.capacity (params.partitions.map (·.name)) = .ok processors ∧
      i = (Instance.fresh params processors m.settings.window).replay m.watchesTraffic id behind ∧
      i.IsFrom params processors m.settings.window := by
  rcases origin absent ops with ⟨hnone, -⟩ |
    ⟨before, params, behind, fresh, hops, hlast, hbehind, hnone, hstart, hget⟩
  · rw [hnone] at hi
    cases hi
  · obtain ⟨-, processors, himplied, rfl⟩ := registered?_eq_some hstart
    rw [hget] at hi
    cases hi
    have hfrom := Instance.isFrom_fresh params (fun p hp => ((implied_ok himplied).2 p hp).1)
      m.settings.window
    exact ⟨before, params, behind, processors, hops, hlast, hbehind, hnone, himplied, rfl,
      hfrom.replay m.watchesTraffic id behind⟩

/-! ### What a start returns -/

/-- A start under the id of a registered instance succeeds and changes nothing. -/
theorem start_of_registered (params : InstanceParams) (hid : isInstanceId id = true)
    (hlive : (m.instances.get? id).isSome = true) :
    (m.start id params).result = .ok () ∧ (m.start id params).monitor = m := by
  refine ⟨?_, start_known params hlive⟩
  simp only [start, hid, Registry.contains, hlive, Bool.not_true, Bool.false_eq_true, if_false,
    if_true]

/-- A start where there is no instance succeeds exactly if it registers one. -/
theorem result_start_of_absent (habsent : m.instances.get? id = none) (params : InstanceParams) :
    (m.start id params).result = .ok () ↔ (m.registered? id params).isSome = true := by
  have hcontains : m.instances.contains id = false := by
    rw [Registry.contains, habsent, Option.isSome_none]
  unfold start registered?
  cases isInstanceId id with
  | false => simp
  | true =>
    simp only [hcontains, Bool.not_true, Bool.false_eq_true, if_false, if_true]
    cases (m.buildInstance id params).result with
    | error fault => simp [Except.toOption]
    | ok processors => simp [Except.toOption]

/-- A start that fails changes nothing. The id names no directory, or a rule is at fault. -/
theorem start_error {params : InstanceParams} {fault : Fault}
    (h : (m.start id params).result = .error fault) :
    (m.start id params).monitor = m ∧ (fault = .invalidInstanceId id ∨ fault.IsOfRule) := by
  cases hid : isInstanceId id with
  | false =>
    have hstart : m.start id params =
        { monitor := m, result := .error (.invalidInstanceId id) } := by
      rw [start, hid, Bool.not_false, if_pos rfl]
    rw [hstart] at h ⊢
    cases h
    exact ⟨rfl, Or.inl rfl⟩
  | true =>
    cases hlive : m.instances.contains id with
    | true =>
      rw [(start_of_registered params hid hlive).1] at h
      cases h
    | false =>
      simp only [start, hid, hlive, Bool.not_true, Bool.false_eq_true, if_false] at h ⊢
      cases hbuilt : (m.buildInstance id params).result with
      | ok processors =>
        rw [hbuilt] at h
        cases h
      | error flaw =>
        rw [hbuilt] at h
        cases h
        rw [buildInstance_result] at hbuilt
        exact ⟨rfl, Or.inr (implied_error hbuilt)⟩

/-- A stop succeeds. -/
theorem result_stop (m : Monitor) (id : String) : (m.stop id).result = .ok () := by
  unfold stop
  split <;> rfl

end Monitor

end QuotaWatch
