/-
# When there are averages

An entity is fed into its window from the first poll on at which anything was fetched for
it (`Entity.Fed`). A push never empties a window, whatever the clock does, so from then
on the entity has an average, of the time of the latest poll, until it is stopped.

The average of the monitor is missing if that of the node is, and otherwise if that of any
instance is; the first one missing in the order of the ids is told of
(`Monitor.average_eq_noData_iff`).

Key definitions: `Visit.NodeSucceeded`, `Visit.WorkloadSucceeded`, `Entity.Fed`,
`Monitor.HasFetched`, `lastPoll`.
Key theorems: `Window.getLast?_push`, `Entity.Fed.poll`, `Entity.average_of_fed`,
`Monitor.fed_entity`, `Monitor.average_eq_noData_iff`, `Monitor.averages_of_run`.
-/
import Mathlib.Data.List.Forall2
import Mathlib.Order.Bounds.Defs
import QuotaWatch.Proofs.Monitor.Figures
import QuotaWatch.Proofs.Monitor.Origin

namespace QuotaWatch

open Time

/-! ### Windows and entities -/

/-- The reading just taken in is the latest one that is retained. -/
theorem Window.getLast?_push (w : Window) (r : Reading) :
    (w.push r).readings.getLast? = some r := by
  unfold push
  cases hback : r.timestamp.back? w.retention with
  | none => exact List.getLast?_concat
  | some cutoff =>
    have hkept : ¬ r.timestamp < cutoff := by
      obtain ⟨-, rfl⟩ := Timestamp.back?_eq_some hback
      exact Timestamp.not_lt.mpr (Timestamp.back_le _ _)
    show (dropOld cutoff (w.readings ++ [r])).getLast? = some r
    rw [dropOld, List.dropWhile_append]
    split
    · rw [List.dropWhile_cons_of_neg (by simpa using hkept)]
      rfl
    · exact List.getLast?_concat

/-- What the window of an entity holds, where `fetched` says whether anything has been
fetched for the entity. -/
structure Entity.Fed (retention : Option Span) (fetched : Prop) (e : Entity) : Prop where
  sampled : e.sampled = true ↔ fetched
  window : e.window.map (·.retention) = retention
  empty : e.sampled = false → ∀ w, e.window = some w → w.readings = []
  latest : e.sampled = true → ∀ w, e.window = some w → w.readings.getLast? = some e.reading

namespace Entity

variable {e : Entity} {retention : Option Span} {fetched : Prop}

theorem Fed.congr {fetched' : Prop} (h : e.Fed retention fetched) (hiff : fetched ↔ fetched') :
    e.Fed retention fetched' := propext hiff ▸ h

theorem fed_fresh (partitions : List String) (processors : List Processor)
    (retention : Option Span) : (Entity.fresh partitions processors retention).Fed retention False where
  sampled := by simp [Entity.fresh]
  window := by cases retention <;> rfl
  empty := by
    intro _ w hw
    obtain ⟨span, -, rfl⟩ := Option.map_eq_some_iff.mp hw
    rfl
  latest := by
    intro h
    cases h

/-- **A poll keeps the window in step with what has been fetched.** -/
theorem Fed.poll (h : e.Fed retention fetched) (f : Fetches) (now : Timestamp) :
    (e.poll f now).Fed retention (fetched ∨ f.anySucceeded = true) where
  sampled := by
    show (e.sampled || f.anySucceeded) = true ↔ _
    rw [Bool.or_eq_true, h.sampled]
  window := by
    rw [retention_poll, h.window]
  empty := by
    intro hsampled w hw
    have hunsampled : (e.sampled || f.anySucceeded) = false := hsampled
    have hwindow : e.window = some w := by
      simpa only [Entity.poll, hunsampled, Bool.false_eq_true, if_false] using hw
    exact h.empty (Bool.or_eq_false_iff.mp hunsampled).1 w hwindow
  latest := by
    intro hsampled w hw
    have hpushed : (e.sampled || f.anySucceeded) = true := hsampled
    have hwindow : e.window.map (·.push (e.reading.refresh f now)) = some w := by
      simpa only [Entity.poll, hpushed, if_true] using hw
    obtain ⟨before, -, rfl⟩ := Option.map_eq_some_iff.mp hwindow
    exact Window.getLast?_push before _

/-- **When an entity has an average**: where there is a window and something has been fetched.
The average has the time of the reading. -/
theorem average_of_fed (h : e.Fed retention fetched) (name : String) :
    (retention = none ∧ e.average name = .error .averagingDisabled) ∨
    (retention ≠ none ∧ ¬ fetched ∧ e.average name = .error (.noData name)) ∨
    (retention ≠ none ∧ fetched ∧
      ∃ r, e.average name = .ok r ∧ r.timestamp = e.reading.timestamp) := by
  cases hw : e.window with
  | none =>
    refine Or.inl ⟨?_, ?_⟩
    · rw [← h.window, hw]
      rfl
    · rw [average, hw]
  | some w =>
    have hretention : retention ≠ none := by
      rw [← h.window, hw]
      exact Option.some_ne_none _
    refine Or.inr ?_
    cases hs : e.sampled with
    | false =>
      refine Or.inl ⟨hretention, fun hf => ?_, ?_⟩
      · rw [h.sampled.mpr hf] at hs
        cases hs
      · simp only [average, hw, Window.average, h.empty hs w hw, List.getLast?_nil]
    | true =>
      refine Or.inr ⟨hretention, h.sampled.mp hs, Window.averageOf w.readings e.reading, ?_, rfl⟩
      simp only [average, hw, Window.average, h.latest hs w hw]

/-- An entity that has an average keeps one at a poll: a push leaves something in the window. -/
theorem exists_average_poll {name : String} (h : ∃ r, e.average name = .ok r) (f : Fetches)
    (now : Timestamp) : ∃ r, (e.poll f now).average name = .ok r := by
  obtain ⟨r, hr⟩ := h
  cases hw : e.window with
  | none =>
    rw [average, hw] at hr
    cases hr
  | some w =>
    cases hs : e.sampled || f.anySucceeded with
    | false =>
      refine ⟨r, ?_⟩
      rw [average, hw] at hr
      simpa only [average, Entity.poll, hs, hw, Bool.false_eq_true, if_false] using hr
    | true =>
      refine ⟨Window.averageOf (w.push (e.reading.refresh f now)).readings
        (e.reading.refresh f now), ?_⟩
      simp only [average, Entity.poll, hs, hw, if_true, Option.map_some, Window.average,
        Window.getLast?_push]

end Entity

/-! ### Visits that fetch something -/

namespace Visit

/-- At the visit of the node something was fetched. -/
def NodeSucceeded (partitions : List PartitionInfo) (watched : Bool) (v : Visit) : Prop :=
  v.cpu.isSome = true ∨ v.ram.isSome = true ∨
    (∃ position p, partitions[position]? = some p ∧ (v.disk position p.path).isSome = true) ∨
    (v.nodeTraffic watched).isSome = true

/-- At the visit of an instance something was fetched. -/
def WorkloadSucceeded (id : String) (params : InstanceParams) (watched : Bool) (v : Visit) : Prop :=
  (v.filled id).isSome = true ∨
    (∃ position p, params.partitions[position]? = some p ∧
      (v.owned id position p.path params.uid params.gid).isSome = true) ∨
    (v.instanceTraffic id watched).isSome = true

end Visit

/-- Something was fetched for partitions by position. -/
theorem any_mapIdx_isSome {α : Type} (figure : ℕ → α → Option Figure) (ps : List α) :
    (ps.mapIdx figure).any (·.isSome) = true ↔
      ∃ position p, ps[position]? = some p ∧ (figure position p).isSome = true := by
  rw [List.any_eq_true]
  constructor
  · rintro ⟨fetched, hmem, hsome⟩
    obtain ⟨position, hlt, rfl⟩ := List.mem_mapIdx.mp hmem
    exact ⟨position, ps[position], List.getElem?_eq_getElem hlt, hsome⟩
  · rintro ⟨position, p, hp, hsome⟩
    obtain ⟨hlt, rfl⟩ := List.getElem?_eq_some_iff.mp hp
    exact ⟨_, List.mem_mapIdx.mpr ⟨position, hlt, rfl⟩, hsome⟩

theorem anySucceeded_systemFetches (m : Monitor) (a : Answers) (now : Timestamp) :
    (m.systemFetches a).anySucceeded = true ↔
      Visit.NodeSucceeded m.capacity.partitions m.watchesTraffic { answers := a, time := now } := by
  rw [Fetches.anySucceeded, systemFetches_partitions m a now, systemFetches_traffic m a now,
    Bool.or_eq_true, Bool.or_eq_true, Bool.or_eq_true, any_mapIdx_isSome, or_assoc, or_assoc]
  rfl

theorem anySucceeded_fetches {i : Instance} {params : InstanceParams} (id : String) (a : Answers)
    (watched : Bool) (now : Timestamp) (huid : i.uid = params.uid) (hgid : i.gid = params.gid)
    (hpartitions : i.partitions = params.partitions) :
    (i.fetches a watched id).anySucceeded = true ↔
      Visit.WorkloadSucceeded id params watched ⟨a, now, i.usage⟩ := by
  obtain ⟨hcpu, hram⟩ := fetches_usage i id a watched now
  rw [Fetches.anySucceeded, hcpu, hram, Option.isSome_map, Option.isSome_map, Bool.or_self,
    fetches_partitions id a watched now huid hgid hpartitions, fetches_traffic i id a watched now,
    Bool.or_eq_true, Bool.or_eq_true, any_mapIdx_isSome, or_assoc]
  rfl

/-! ### Windows in a run -/

/-- The time of a poll. -/
def Operation.pollTime? : Operation → Option Timestamp
  | .poll _ now => some now
  | _ => none

/-- The time of the latest poll of a run. -/
def lastPoll (ops : List Operation) : Option Timestamp :=
  (ops.filterMap Operation.pollTime?).getLast?

theorem lastPoll_concat (ops : List Operation) (op : Operation) :
    lastPoll (ops ++ [op]) = op.pollTime?.or (lastPoll ops) := by
  unfold lastPoll
  rw [List.filterMap_append, List.getLast?_append]
  cases op <;> rfl

namespace Monitor

/-- Something has been fetched for an entity since it was registered. -/
def HasFetched (m : Monitor) (ops : List Operation) : EntityId → Prop
  | .node => ∃ v ∈ m.visits .node ops, v.NodeSucceeded m.capacity.partitions m.watchesTraffic
  | .workload id => ∃ params, registeredWith id m ops = some params ∧
      ∃ v ∈ m.visits (.workload id) ops, v.WorkloadSucceeded id params m.watchesTraffic

/-- One visit more has fetched something if one before it has, or it does. -/
theorem exists_mem_concat {α : Type} {p : α → Prop} (l : List α) (x : α) :
    (∃ y ∈ l ++ [x], p y) ↔ (∃ y ∈ l, p y) ∨ p x := by
  simp only [List.mem_append, List.mem_singleton, or_and_right, exists_or, exists_eq_left]

section Built

variable {b : Blueprint} {a₀ : Answers} {m : Monitor} (hm : (build b a₀).result = .ok m)
include hm

theorem fed_node (ops : List Operation) :
    (m.after ops).system.Fed m.settings.window (m.HasFetched ops .node) := by
  obtain ⟨info, capacity, rules, processors, -, -, -, -, -, rfl⟩ := build_ok hm
  refine since_node (P := fun e visits => e.Fed b.settings.window
    (∃ v ∈ visits, Visit.NodeSucceeded capacity.partitions b.watchesTraffic v))
    (fun _ _ _ => rfl) ?_ ?_ ops
  · exact (Entity.fed_fresh _ processors b.settings.window).congr (by simp)
  · intro m' a now visits hmake h
    have hfetched := anySucceeded_systemFetches m' a now
    rw [hmake.capacity, hmake.watchesTraffic] at hfetched
    apply (h.poll (m'.systemFetches a) now).congr
    rw [exists_mem_concat, hfetched]
    rfl

theorem fed_workload (ops : List Operation) {id : String} {i : Instance}
    (hi : (m.after ops).instances.get? id = some i) :
    i.entity.Fed m.settings.window (m.HasFetched ops (.workload id)) := by
  have hrun : ∃ params, registeredWith id m ops = some params ∧
      Told id m.watchesTraffic params i (m.visits (.workload id) ops) ∧
        i.entity.Fed m.settings.window (∃ v ∈ m.visits (.workload id) ops,
          Visit.WorkloadSucceeded id params m.watchesTraffic v) := by
    refine since_workload (P := fun params i visits =>
      Told id m.watchesTraffic params i visits ∧ i.entity.Fed m.settings.window
        (∃ v ∈ visits, Visit.WorkloadSucceeded id params m.watchesTraffic v))
      (fun _ _ _ => rfl) (get?_of_build hm id) ?_ ?_ ops hi
    · intro m' params processors hmake _
      refine ⟨told_fresh id _ params processors m'.settings.window, ?_⟩
      rw [hmake.settings]
      exact (Entity.fed_fresh _ processors m.settings.window).congr (by simp)
    · rintro m' a now params i visits hmake ⟨htold, hfed⟩
      have hfetched :=
        anySucceeded_fetches id a m.watchesTraffic now htold.uid htold.gid htold.partitions
      rw [hmake.watchesTraffic]
      refine ⟨told_poll htold a now, (hfed.poll (i.fetches a m.watchesTraffic id) now).congr ?_⟩
      rw [exists_mem_concat, hfetched]
  obtain ⟨params, hreg, -, hfed⟩ := hrun
  apply hfed.congr
  show _ ↔ ∃ params, registeredWith id m ops = some params ∧ _
  rw [hreg]
  simp only [Option.some.injEq, exists_eq_left']

/-- **What the window of an entity holds behind a run.** -/
theorem fed_entity (ops : List Operation) {entity : EntityId} {e : Entity}
    (he : (m.after ops).entity? entity = some e) :
    e.Fed m.settings.window (m.HasFetched ops entity) := by
  cases entity with
  | node =>
    cases he
    exact fed_node hm ops
  | workload id =>
    obtain ⟨i, hi, rfl⟩ := Option.map_eq_some_iff.mp he
    exact fed_workload hm ops hi

/-- The reading of an entity for which anything has been fetched is that of the latest poll. -/
theorem time_of_sampled (ops : List Operation) {entity : EntityId} {e : Entity}
    (he : (m.after ops).entity? entity = some e) (hsampled : e.sampled = true) :
    lastPoll ops = some e.reading.timestamp := by
  induction ops using List.reverseRecOn generalizing e with
  | nil =>
    obtain ⟨info, capacity, rules, processors, -, -, -, -, -, rfl⟩ := build_ok hm
    cases entity with
    | node =>
      cases he
      cases hsampled
    | workload id => cases he
  | append_singleton ops op ih =>
    rw [after_concat] at he
    rw [lastPoll_concat]
    rcases entity?_step he with ⟨a, now, before, f, rfl, -, rfl⟩ |
      ⟨id, params, processors, -, rfl⟩ | ⟨hpoll, hbefore⟩
    · rfl
    · cases hsampled
    · have hnone : op.pollTime? = none := by
        cases op with
        | poll a now => exact absurd rfl (hpoll a now)
        | _ => rfl
      rw [hnone, Option.none_or]
      exact ih hbefore hsampled

end Built

/-! ### The first one missing -/

/-- Work that is done entry by entry gives the results of all entries, or the fault of the
first entry that has one. -/
theorem mapM_cases {α β ε : Type} (f : α → Except ε β) : ∀ l : List α,
    (∃ ys, l.mapM f = .ok ys ∧ List.Forall₂ (fun x y => f x = .ok y) l ys) ∨
    ∃ before x behind fault, l = before ++ x :: behind ∧ (∀ y ∈ before, ∃ z, f y = .ok z) ∧
      f x = .error fault ∧ l.mapM f = .error fault
  | [] => Or.inl ⟨[], rfl, .nil⟩
  | x :: rest => by
    rw [List.mapM_cons]
    cases hx : f x with
    | error fault => exact Or.inr ⟨[], x, rest, fault, rfl, by simp, hx, rfl⟩
    | ok y =>
      rcases mapM_cases f rest with ⟨ys, hys, hall⟩ |
        ⟨before, z, behind, fault, rfl, hbefore, hz, hfault⟩
      · rw [hys]
        exact Or.inl ⟨y :: ys, rfl, .cons hx hall⟩
      · rw [hfault]
        refine Or.inr ⟨x :: before, z, behind, fault, rfl, ?_, hz, rfl⟩
        intro w hw
        rcases List.mem_cons.mp hw with rfl | hw
        · exact ⟨y, hx⟩
        · exact hbefore w hw

/-- The ids under which nothing has been fetched since the instance there was registered. -/
def unfetched (m : Monitor) (ops : List Operation) : Set String :=
  {id | id ∈ (m.after ops).instances.ids ∧ ¬ m.HasFetched ops (.workload id)}

/-- The average of one instance as an entry of the averages of a run. -/
structure AverageEntry (m : Monitor) (ops : List Operation) (id : String)
    (entry : InstanceReading) : Prop where
  ident : ∃ i, (m.after ops).instances.get? id = some i ∧ entry.ident = i.ident
  reading : (m.after ops).instanceAverage id = .ok entry.reading
  time : lastPoll ops = some entry.reading.timestamp

/-- The averages of a run: those of the node and of every instance, as of the latest poll. -/
structure AverageSnapshot (m : Monitor) (ops : List Operation) (s : Snapshot) : Prop where
  nodeId : s.nodeId = m.nodeId
  node : (m.after ops).system.average systemName = .ok s.node
  time : lastPoll ops = some s.timestamp
  nodeTime : lastPoll ops = some s.node.timestamp
  instances : List.Forall₂ (AverageEntry m ops) (m.after ops).instances.ids s.instances

section Built

variable {b : Blueprint} {a₀ : Answers} {m : Monitor} (hm : (build b a₀).result = .ok m)
include hm

/-- The average of an entity of a run with windows: it is there once anything has been
fetched, and has the time of the latest poll. -/
theorem average_entity (hwindow : m.settings.window ≠ none) (ops : List Operation)
    {entity : EntityId} {e : Entity} (he : (m.after ops).entity? entity = some e) (name : String) :
    (¬ m.HasFetched ops entity ∧ e.average name = .error (.noData name)) ∨
    (m.HasFetched ops entity ∧
      ∃ r, e.average name = .ok r ∧ lastPoll ops = some r.timestamp) := by
  have hfed := fed_entity hm ops he
  rcases Entity.average_of_fed hfed name with ⟨hnone, -⟩ | ⟨-, hfetched, haverage⟩ |
    ⟨-, hfetched, r, haverage, htime⟩
  · exact absurd hnone hwindow
  · exact Or.inl ⟨hfetched, haverage⟩
  · refine Or.inr ⟨hfetched, r, haverage, ?_⟩
    rw [htime]
    exact time_of_sampled hm ops he (hfed.sampled.mpr hfetched)

/-- The instances in front of the first one without an average have fetched something, so
it has the least id of those that have not. -/
theorem isLeast_unfetched (hwindow : m.settings.window ≠ none) (ops : List Operation)
    {before behind : List (String × Instance)} {id : String} {i : Instance} {fault : Fault}
    (hentries : (m.after ops).instances.entries = before ++ (id, i) :: behind)
    (hbefore : ∀ entry ∈ before, ∃ r, averageOf entry.1 entry.2 = .ok r)
    (hfault : averageOf id i = .error fault) :
    IsLeast (m.unfetched ops) id ∧ fault = .noData id := by
  have hget : ∀ entry ∈ (m.after ops).instances.entries,
      (m.after ops).entity? (.workload entry.1) = some entry.2.entity := by
    intro entry hentry
    exact Option.map_eq_some_iff.mpr ⟨entry.2, Registry.get?_of_mem hentry, rfl⟩
  have hmem : (id, i) ∈ (m.after ops).instances.entries := by
    rw [hentries]
    exact List.mem_append_right _ List.mem_cons_self
  rcases average_entity hm hwindow ops (hget _ hmem) id with ⟨hunfetched, haverage⟩ |
    ⟨-, r, haverage, -⟩
  · rw [averageOf, haverage] at hfault
    cases hfault
    refine ⟨⟨⟨List.mem_map.mpr ⟨_, hmem, rfl⟩, hunfetched⟩, ?_⟩, rfl⟩
    rintro other ⟨hother, hotherUnfetched⟩
    have hsorted : (m.after ops).instances.ids.Pairwise (· < ·) := Registry.ids_sorted _
    rw [Registry.ids, hentries, List.map_append, List.map_cons, List.pairwise_append,
      List.pairwise_cons] at hsorted
    obtain ⟨⟨other, j⟩, hentry, rfl⟩ := List.mem_map.mp hother
    have hplace := hentry
    rw [hentries, List.mem_append, List.mem_cons] at hplace
    rcases hplace with hplace | heq | hplace
    · -- one in front has an average, and so has fetched something
      obtain ⟨r, hr⟩ := hbefore _ hplace
      rcases average_entity hm hwindow ops (hget _ hentry) other with ⟨-, haverage⟩ | ⟨hfetched, -⟩
      · rw [averageOf, haverage] at hr
        cases hr
      · exact absurd hfetched hotherUnfetched
    · cases heq
      exact String.le_refl _
    · have hlt := hsorted.2.1.1 other (List.mem_map.mpr ⟨_, hplace, rfl⟩)
      exact String.not_lt.mp fun h => String.lt_irrefl _ (String.lt_trans h hlt)
  · rw [averageOf, haverage] at hfault
    cases hfault

/-- An instance that has an average has fetched something, and its average is the one that is
asked for under its id. -/
theorem averageEntry_of_ok (hwindow : m.settings.window ≠ none) (ops : List Operation)
    {entry : String × Instance} {reading : InstanceReading}
    (hmem : entry ∈ (m.after ops).instances.entries)
    (hreading : averageOf entry.1 entry.2 = .ok reading) :
    m.HasFetched ops (.workload entry.1) ∧ m.AverageEntry ops entry.1 reading := by
  have hget := Registry.get?_of_mem hmem
  have hentity : (m.after ops).entity? (.workload entry.1) = some entry.2.entity :=
    Option.map_eq_some_iff.mpr ⟨entry.2, hget, rfl⟩
  rcases average_entity hm hwindow ops hentity entry.1 with ⟨-, hfault⟩ | ⟨hfetched, r, hr, htime⟩
  · rw [averageOf, hfault] at hreading
    cases hreading
  · rw [averageOf, hr] at hreading
    cases hreading
    refine ⟨hfetched, ⟨entry.2, hget, rfl⟩, ?_, htime⟩
    rw [instanceAverage, hget]
    exact hr

/-- **What the average of a monitor with windows is**: the fault of the node, that of the first
instance that has one, or the averages of all. -/
theorem average_cases (hwindow : m.settings.window ≠ none) (ops : List Operation) :
    (¬ m.HasFetched ops .node ∧ (m.after ops).average = .error (.noData systemName)) ∨
    (m.HasFetched ops .node ∧ ∃ id, IsLeast (m.unfetched ops) id ∧
      (m.after ops).average = .error (.noData id)) ∨
    (m.HasFetched ops .node ∧ m.unfetched ops = ∅ ∧
      ∃ s, (m.after ops).average = .ok s ∧ m.AverageSnapshot ops s) := by
  have hnode : (m.after ops).entity? .node = some (m.after ops).system := rfl
  rcases average_entity hm hwindow ops hnode systemName with ⟨hunfetched, haverage⟩ |
    ⟨hfetched, node, haverage, htime⟩
  · refine Or.inl ⟨hunfetched, ?_⟩
    rw [average, haverage]
    rfl
  refine Or.inr ?_
  have hrest : (m.after ops).average =
      ((m.after ops).instances.entries.mapM fun entry => averageOf entry.1 entry.2) >>= fun rs =>
        .ok ⟨(m.after ops).nodeId, node, rs, node.timestamp⟩ := by
    rw [average, haverage]
    rfl
  rcases mapM_cases (fun entry => averageOf entry.1 entry.2) (m.after ops).instances.entries with
    ⟨readings, hreadings, hall⟩ | ⟨before, ⟨id, i⟩, behind, fault, hentries, hbefore, hfault, hmap⟩
  · have hboth := ((List.forall₂_and_left _ _).mpr ⟨fun _ hmem => hmem, hall⟩).imp
      fun entry reading h => averageEntry_of_ok hm hwindow ops h.1 h.2
    obtain ⟨hfetchedAll, hentries⟩ := (List.forall₂_and_left _ _).mp hboth
    refine Or.inr ⟨hfetched, ?_, ⟨(m.after ops).nodeId, node, readings, node.timestamp⟩, ?_, ?_⟩
    · apply Set.eq_empty_of_forall_notMem
      rintro id ⟨hid, hunfetched⟩
      obtain ⟨entry, hmem, rfl⟩ := List.mem_map.mp hid
      exact hunfetched (hfetchedAll entry hmem)
    · rw [hrest, hreadings]
      rfl
    · refine ⟨(m.after_sameMake ops).nodeId, haverage, htime, htime, ?_⟩
      rw [Registry.ids, List.forall₂_map_left_iff]
      exact hentries
  · obtain ⟨hleast, rfl⟩ := isLeast_unfetched hm hwindow ops hentries hbefore hfault
    refine Or.inl ⟨hfetched, id, hleast, ?_⟩
    rw [hrest, hmap]
    rfl

/-- **Which fault the average of a monitor with windows has.** An instance may have the name
of the node as its id. -/
theorem average_eq_noData_iff (hwindow : m.settings.window ≠ none) (ops : List Operation)
    (name : String) :
    (m.after ops).average = .error (.noData name) ↔
      (¬ m.HasFetched ops .node ∧ name = systemName) ∨
      (m.HasFetched ops .node ∧ IsLeast (m.unfetched ops) name) := by
  rcases average_cases hm hwindow ops with ⟨hnode, haverage⟩ | ⟨hnode, id, hleast, haverage⟩ |
    ⟨hnode, hnone, s, haverage, -⟩
  · rw [haverage]
    constructor
    · intro h
      cases h
      exact Or.inl ⟨hnode, rfl⟩
    · rintro (⟨-, rfl⟩ | ⟨hfetched, -⟩)
      · rfl
      · exact absurd hfetched hnode
  · rw [haverage]
    constructor
    · intro h
      cases h
      exact Or.inr ⟨hnode, hleast⟩
    · rintro (⟨hunfetched, -⟩ | ⟨-, hleast'⟩)
      · exact absurd hnode hunfetched
      · have heq : id = name :=
          String.le_antisymm (hleast.2 hleast'.1) (hleast'.2 hleast.1)
        rw [heq]
  · rw [haverage, hnone]
    constructor
    · intro h
      cases h
    · rintro (⟨hunfetched, -⟩ | ⟨-, hleast⟩)
      · exact absurd hnode hunfetched
      · exact absurd hleast.1 (Set.notMem_empty name)

end Built

/-! ### Averages stay -/

section Stay

variable {m : Monitor} {id : String}

theorem exists_system_average_step (h : ∃ r, m.system.average systemName = .ok r)
    (op : Operation) : ∃ r, (m.step op).1.system.average systemName = .ok r := by
  rcases m.system_step op with ⟨a, now, -, he⟩ | ⟨-, he⟩
  · rw [he]
    exact Entity.exists_average_poll h _ now
  · rwa [he]

theorem exists_instanceAverage_step (h : ∃ r, m.instanceAverage id = .ok r) {op : Operation}
    (hop : op ≠ .stop id) : ∃ r, (m.step op).1.instanceAverage id = .ok r := by
  obtain ⟨r, hr⟩ := h
  cases hi : m.instances.get? id with
  | none =>
    rw [instanceAverage, hi] at hr
    cases hr
  | some i =>
    rw [instanceAverage, hi] at hr
    rcases m.get?_step op id with ⟨a, now, -, he⟩ | ⟨hstop, -⟩ | ⟨_, _, -, hnone, -, -⟩ | ⟨-, -, he⟩
    · rw [instanceAverage, he, hi]
      exact Entity.exists_average_poll ⟨r, hr⟩ _ now
    · exact absurd hstop hop
    · rw [hnone] at hi
      cases hi
    · rw [instanceAverage, he, hi]
      exact ⟨r, hr⟩

/-- The node keeps an average in every run. -/
theorem exists_system_average_after : ∀ {m : Monitor} (more : List Operation),
    (∃ r, m.system.average systemName = .ok r) →
      ∃ r, (m.after more).system.average systemName = .ok r
  | _, [], h => h
  | _, op :: more, h => exists_system_average_after more (exists_system_average_step h op)

/-- An instance keeps an average until it is stopped. -/
theorem exists_instanceAverage_after : ∀ {m : Monitor} (more : List Operation),
    .stop id ∉ more → (∃ r, m.instanceAverage id = .ok r) →
      ∃ r, (m.after more).instanceAverage id = .ok r
  | _, [], _, h => h
  | _, op :: more, hmore, h => by
    rw [List.mem_cons, not_or] at hmore
    have hop : op ≠ .stop id := fun he => hmore.1 he.symm
    exact exists_instanceAverage_after more hmore.2 (exists_instanceAverage_step h hop)

end Stay

/-- **When there are averages.** Without a window they are disabled. With windows the average
of the monitor lacks data of the node exactly if nothing has been fetched for the node since
the monitor was built, and otherwise data of the instance with the least id among those for
which nothing has been fetched since they were registered. Where there is none of these, it
has one entry for every instance in the order of the ids, with the average of this instance,
and all is of the time of the latest poll. The node and an instance that have an average
keep one, an instance until it is stopped. -/
theorem averages_of_run {b : Blueprint} {a₀ : Answers} {m : Monitor}
    (hm : (build b a₀).result = .ok m) (ops : List Operation) :
    (∀ id, id ∉ (m.after ops).instances.ids →
      (m.after ops).instanceAverage id = .error (.unknownInstance id)) ∧
    (m.settings.window = none → (m.after ops).average = .error .averagingDisabled ∧
      ∀ id ∈ (m.after ops).instances.ids,
        (m.after ops).instanceAverage id = .error .averagingDisabled) ∧
    (m.settings.window ≠ none →
      (∀ name, (m.after ops).average = .error (.noData name) ↔
        (¬ m.HasFetched ops .node ∧ name = systemName) ∨
        (m.HasFetched ops .node ∧ IsLeast (m.unfetched ops) name)) ∧
      (m.HasFetched ops .node → m.unfetched ops = ∅ →
        (m.after ops).instances.ids.Pairwise (· < ·) ∧
        ∃ s, (m.after ops).average = .ok s ∧ m.AverageSnapshot ops s) ∧
      ∀ id ∈ m.unfetched ops, (m.after ops).instanceAverage id = .error (.noData id)) ∧
    (∀ more, (∃ r, (m.after ops).system.average systemName = .ok r) →
      ∃ r, (m.after (ops ++ more)).system.average systemName = .ok r) ∧
    ∀ (id : String) (more : List Operation), .stop id ∉ more →
      (∃ r, (m.after ops).instanceAverage id = .ok r) →
        ∃ r, (m.after (ops ++ more)).instanceAverage id = .ok r := by
  refine ⟨fun id hid => ?_, fun hnone => ⟨?_, fun id hid => ?_⟩, fun hwindow => ⟨?_, ?_, ?_⟩, ?_, ?_⟩
  · -- not registered
    rw [Registry.mem_ids, Bool.not_eq_true, Option.isSome_eq_false_iff, Option.isNone_iff_eq_none]
      at hid
    rw [instanceAverage, hid]
  · -- the node without a window
    rcases Entity.average_of_fed (fed_node hm ops) systemName with ⟨-, haverage⟩ | ⟨h, -⟩ | ⟨h, -⟩
    · rw [average, haverage]
      rfl
    · exact absurd hnone h
    · exact absurd hnone h
  · -- an instance without a window
    obtain ⟨i, hi⟩ := Option.isSome_iff_exists.mp (Registry.mem_ids.mp hid)
    rw [instanceAverage, hi]
    rcases Entity.average_of_fed (fed_workload hm ops hi) id with ⟨-, haverage⟩ | ⟨h, -⟩ | ⟨h, -⟩
    · exact haverage
    · exact absurd hnone h
    · exact absurd hnone h
  · exact average_eq_noData_iff hm hwindow ops
  · intro hnode hnone
    refine ⟨Registry.ids_sorted _, ?_⟩
    rcases average_cases hm hwindow ops with ⟨hunfetched, -⟩ | ⟨-, id, hleast, -⟩ | ⟨-, -, h⟩
    · exact absurd hnode hunfetched
    · rw [hnone] at hleast
      exact absurd hleast.1 (Set.notMem_empty id)
    · exact h
  · -- an instance of which nothing has been fetched
    rintro id ⟨hid, hunfetched⟩
    obtain ⟨i, hi⟩ := Option.isSome_iff_exists.mp (Registry.mem_ids.mp hid)
    have hentity : (m.after ops).entity? (.workload id) = some i.entity :=
      Option.map_eq_some_iff.mpr ⟨i, hi, rfl⟩
    rw [instanceAverage, hi]
    rcases average_entity hm hwindow ops hentity id with ⟨-, haverage⟩ | ⟨hfetched, -⟩
    · exact haverage
    · exact absurd hfetched hunfetched
  · intro more h
    rw [after_append]
    exact exists_system_average_after more h
  · intro id more hmore h
    rw [after_append]
    exact exists_instanceAverage_after more hmore h

/-- A run in which two instances are started behind the polls, and the clock goes back at the
poll behind that. -/
def lateStarts : List Operation := twoPolls ++ [.start "c" worker, .start "b" worker]

def setBackPoll : Operation := .poll (underLoad 10 none).answers ⟨500, false⟩

/-- Nothing has been fetched for the instances that were started late, so the first of them is
told of. Behind a poll there are averages of all, of the time to which the clock was set back. -/
theorem averages_of_run_lateStarts :
    IsLeast (smallMonitor.unfetched lateStarts) "b" ∧
      ∃ s, (smallMonitor.after (lateStarts ++ [setBackPoll])).average = .ok s ∧
        smallMonitor.AverageSnapshot (lateStarts ++ [setBackPoll]) s ∧
        s.timestamp = ⟨500, false⟩ ∧ s.instances.length = 3 := by
  have hwindow : smallMonitor.settings.window ≠ none := Option.some_ne_none _
  constructor
  · obtain ⟨-, -, hwith, -⟩ := averages_of_run build_smallNode lateStarts
    rcases ((hwith hwindow).1 "b").mp rfl with ⟨-, hname⟩ | ⟨-, hleast⟩
    · exact absurd hname (by decide)
    · exact hleast
  · obtain ⟨-, -, hwith, -⟩ := averages_of_run build_smallNode (lateStarts ++ [setBackPoll])
    obtain ⟨hnoData, hall, hmissing⟩ := hwith hwindow
    have hnode : smallMonitor.HasFetched (lateStarts ++ [setBackPoll]) .node := by
      by_contra hunfetched
      cases (hnoData systemName).mpr (Or.inl ⟨hunfetched, rfl⟩)
    have hnone : smallMonitor.unfetched (lateStarts ++ [setBackPoll]) = ∅ := by
      apply Set.eq_empty_of_forall_notMem
      intro id hid
      have hfault := hmissing id hid
      have hids : id ∈ ["a", "b", "c"] := hid.1
      simp only [List.mem_cons, List.not_mem_nil, or_false] at hids
      rcases hids with rfl | rfl | rfl <;> cases hfault
    obtain ⟨-, s, hs, hsnapshot⟩ := hall hnode hnone
    refine ⟨s, hs, hsnapshot, ?_, hsnapshot.instances.length_eq.symm⟩
    exact (Option.some.inj hsnapshot.time).symm

end Monitor

end QuotaWatch
