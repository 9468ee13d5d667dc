/-
# What one entity sees of the others

Two runs are alike for an entity if they poll and send at the same times, start
and stop the entity in the same way and answer its own questions in the same
way. What is done to the other instances, and what their sources answer, may
differ (`Alike`). Such runs leave the same record of the entity and tell the
same of it.

The proof carries one relation between the two monitors through both runs: they
were made alike and hold the same record of the entity (`Monitor.Twin`). An
operation on another instance keeps it on either side alone (`Twin.left`,
`Twin.right`); an own operation keeps it when both do it (`Twin.poll`,
`Twin.both`).

Key definitions: `Foreign`, `SameAnswers`, `Alike`, `Monitor.Twin`, `Monitor.told`.
Key theorems: `Monitor.Twin.poll`, `Monitor.Twin.both`, `Monitor.told_both`,
`Monitor.isolation`.
-/
import Mathlib.Data.List.Basic
import QuotaWatch.Proofs.Monitor.Built

namespace QuotaWatch

open Time

/-! ### Runs that are alike for an entity -/

/-- The operation is done to no entity, or to another instance. -/
def Foreign (entity : EntityId) : Operation → Prop
  | .poll _ _ | .send _ => False
  | .start id _ | .stop id => entity ≠ .workload id
  | .query => True

/-- The questions that a poll asks about an entity have the same answers. -/
def SameAnswers (entity : EntityId) (m : Monitor) (a a' : Answers) : Prop :=
  match entity with
  | .node =>
    a'.cpuPercent = a.cpuPercent ∧ a'.memory = a.memory ∧
      (∀ position p, m.capacity.partitions[position]? = some p →
        a'.disk position p.path = a.disk position p.path) ∧
      (m.watchesTraffic = true → a'.nodeTraffic = a.nodeTraffic)
  | .workload id => ∀ i, m.instances.get? id = some i →
    a'.usage id i.usage = a.usage id i.usage ∧
      (∀ position p, i.partitions[position]? = some p →
        a'.owned id position p.path i.uid i.gid = a.owned id position p.path i.uid i.gid) ∧
      (m.watchesTraffic = true → a'.hasInstanceCounters id = a.hasInstanceCounters id ∧
        (a.hasInstanceCounters id = true → a'.instanceTraffic id = a.instanceTraffic id))

theorem SameAnswers.refl (entity : EntityId) (m : Monitor) (a : Answers) :
    SameAnswers entity m a a := by
  cases entity with
  | node => exact ⟨rfl, rfl, fun _ _ _ => rfl, fun _ => rfl⟩
  | workload id => exact fun _ _ => ⟨rfl, fun _ _ _ => rfl, fun _ => ⟨rfl, fun _ => rfl⟩⟩

/-- Two runs from a monitor differ only in what is done to the other entities and in
what these are answered. -/
inductive Alike (entity : EntityId) : Monitor → List Operation → List Operation → Prop
  | nil {m : Monitor} : Alike entity m [] []
  | poll {m : Monitor} {a a' : Answers} {now : Timestamp} {ops ops' : List Operation} :
    SameAnswers entity m a a' → Alike entity (m.step (.poll a now)).1 ops ops' →
      Alike entity m (.poll a now :: ops) (.poll a' now :: ops')
  | both {m : Monitor} {op : Operation} {ops ops' : List Operation} :
    Alike entity (m.step op).1 ops ops' → Alike entity m (op :: ops) (op :: ops')
  | left {m : Monitor} {op : Operation} {ops ops' : List Operation} :
    Foreign entity op → Alike entity (m.step op).1 ops ops' → Alike entity m (op :: ops) ops'
  | right {m : Monitor} {op : Operation} {ops ops' : List Operation} :
    Foreign entity op → Alike entity m ops ops' → Alike entity m ops (op :: ops')

namespace Monitor

/-! ### What is told of an entity -/

/-- The effects of the alerts of an entity at a poll. -/
def entityAlertEvents (entity : EntityId) (m : Monitor) (a : Answers) (now : Timestamp) :
    List Event :=
  match entity with
  | .node => m.systemAlertEvents a now
  | .workload id => (m.instances.get? id).elim [] (m.instanceAlertEvents a now id)

/-- The effects of a poll are those of fetching, those of the alerts of each entity, and
the note at its end. -/
theorem pollEvents_eq (m : Monitor) (a : Answers) (now : Timestamp) :
    m.pollEvents a now = m.fetchEvents a ++ entityAlertEvents .node m a now ++
      (m.instances.ids.flatMap fun id => entityAlertEvents (.workload id) m a now) ++
      [.noted (.polled m.nodeId (m.systemPolled a now).reading m.instances.entries.length),
        .counted .polls] := by
  have hinstances : (m.instances.ids.flatMap fun id => entityAlertEvents (.workload id) m a now) =
      m.instances.entries.flatMap fun entry => m.instanceAlertEvents a now entry.1 entry.2 :=
    m.instances.flatMap_ids (m.instanceAlertEvents a now)
  rw [hinstances]
  rfl

/-- The entry of an entity in a snapshot that lists the instances under these ids. -/
def entryIn (entity : EntityId) (ids : List String) (s : Snapshot) :
    Option (Option Ident × Reading) :=
  match entity with
  | .node => some (none, s.node)
  | .workload id => ((ids.zip s.instances).lookup id).map fun r => (some r.ident, r.reading)

theorem lookup_zip_ids {α β : Type} (f : α → β) (id : String) : ∀ (l : List (String × α)),
    ((l.map (·.1)).zip ((l.map (·.2)).map f)).lookup id = (Registry.find? id l).map f
  | [] => rfl
  | (name, a) :: rest => by
    simp only [List.map_cons, List.zip_cons_cons, List.lookup_cons, Registry.find?]
    by_cases h : name = id
    · rw [if_pos h, h, beq_self_eq_true]
      rfl
    · rw [if_neg h, beq_false_of_ne fun e => h e.symm]
      exact lookup_zip_ids f id rest

/-- The entry of an instance is the reading of its record. -/
theorem entryIn_snapshot (m : Monitor) (now : Timestamp) (id : String) :
    entryIn (.workload id) m.instances.ids (m.snapshot now) =
      (m.instances.get? id).map fun i => (some i.ident, i.entity.reading) := by
  calc entryIn (.workload id) m.instances.ids (m.snapshot now)
      = ((m.instances.get? id).map Instance.toReading).map fun r => (some r.ident, r.reading) :=
        congrArg (Option.map _) (lookup_zip_ids Instance.toReading id m.instances.entries)
    _ = (m.instances.get? id).map fun i => (some i.ident, i.entity.reading) := by
        rw [Option.map_map]
        rfl

/-- What a run tells of an entity. -/
inductive Telling where
  /-- The alerts of a poll, with the notes and counts that go with them. -/
  | alerts (events : List Event)
  /-- The entry in a snapshot, if there is one. -/
  | entry (shown : Option (Option Ident × Reading))

/-- What an operation tells of an entity. -/
def tell (entity : EntityId) (m : Monitor) : Operation → List Telling
  | .poll a now => [.alerts (m.entityAlertEvents entity a now)]
  | .send now => [.entry (entryIn entity m.instances.ids (m.snapshot now))]
  | _ => []

/-- What a run tells of an entity, in order. -/
def told (entity : EntityId) (m : Monitor) : List Operation → List Telling
  | [] => []
  | op :: ops => tell entity m op ++ told entity (m.step op).1 ops

/-! ### Twins -/

/-- Two monitors hold the same record of an entity. -/
def SameRecord (entity : EntityId) (m m' : Monitor) : Prop :=
  match entity with
  | .node => m'.system = m.system
  | .workload id => m'.instances.get? id = m.instances.get? id

/-- Two monitors cannot be told apart by an entity. -/
structure Twin (entity : EntityId) (m m' : Monitor) : Prop where
  make : SameMake m m'
  record : SameRecord entity m m'

theorem Twin.refl (entity : EntityId) (m : Monitor) : Twin entity m m := by
  refine ⟨SameMake.refl m, ?_⟩
  cases entity <;> rfl

variable {entity : EntityId} {m m' : Monitor}

/-- An operation that is foreign to an entity leaves its record alone. -/
theorem sameRecord_step {op : Operation} (h : Foreign entity op) :
    SameRecord entity m (m.step op).1 := by
  have hpoll : ∀ a now, op ≠ .poll a now := by
    rintro a now rfl
    exact h
  cases entity with
  | node =>
    rcases m.system_step op with ⟨a, now, he, -⟩ | ⟨-, he⟩
    · exact absurd he (hpoll a now)
    · exact he
  | workload id =>
    rcases m.get?_step op id with ⟨a, now, he, -⟩ | ⟨rfl, -⟩ | ⟨params, ps, rfl, -⟩ | ⟨-, -, he⟩
    · exact absurd he (hpoll a now)
    · exact absurd rfl h
    · exact absurd rfl h
    · exact he

theorem SameRecord.symm (h : SameRecord entity m m') : SameRecord entity m' m := by
  cases entity <;> exact Eq.symm h

theorem SameRecord.trans {m'' : Monitor} (h : SameRecord entity m m')
    (h' : SameRecord entity m' m'') : SameRecord entity m m'' := by
  cases entity <;> exact Eq.trans h' h

/-- A foreign operation in the first run alone. -/
theorem Twin.left (h : Twin entity m m') {op : Operation} (hop : Foreign entity op) :
    Twin entity (m.step op).1 m' :=
  ⟨(m.step_sameMake op).symm.trans h.make, (sameRecord_step hop).symm.trans h.record⟩

/-- A foreign operation in the second run alone. -/
theorem Twin.right (h : Twin entity m m') {op : Operation} (hop : Foreign entity op) :
    Twin entity m (m'.step op).1 :=
  ⟨h.make.trans (m'.step_sameMake op), h.record.trans (sameRecord_step hop)⟩

/-! ### Polls of twins -/

theorem mapIdx_congr {α β : Type} {f g : ℕ → α → β} {l : List α}
    (h : ∀ position x, l[position]? = some x → f position x = g position x) :
    l.mapIdx f = l.mapIdx g :=
  List.mapIdx_eq_mapIdx_iff.mpr fun position hlt =>
    h position l[position] (List.getElem?_eq_getElem hlt)

/-- Where the questions about the node have the same answers the same is fetched. -/
theorem systemFetches_congr {a a' : Answers} (hmake : SameMake m m')
    (h : SameAnswers .node m a a') : m'.systemFetches a' = m.systemFetches a := by
  obtain ⟨hcpu, hmemory, hdisk, htraffic⟩ := h
  have hpartitions : (m.capacity.partitions.mapIdx fun position p =>
        ((a'.disk position p.path).map (·.used)).toOption) =
      m.capacity.partitions.mapIdx fun position p =>
        ((a.disk position p.path).map (·.used)).toOption :=
    mapIdx_congr fun position p hp => by rw [hdisk position p hp]
  have hquestions : (m.capacity.partitions.mapIdx fun position p => (Probe.disk p.path,
        Fetches.failure p.name ((a'.disk position p.path).map (·.used)))) =
      m.capacity.partitions.mapIdx fun position p => (Probe.disk p.path,
        Fetches.failure p.name ((a.disk position p.path).map (·.used))) :=
    mapIdx_congr fun position p hp => by rw [hdisk position p hp]
  have hwatched : (if m.watchesTraffic then some a'.nodeTraffic else none) =
      if m.watchesTraffic then some a.nodeTraffic else none := by
    split
    · rename_i hwatch
      rw [htraffic hwatch]
    · rfl
  simp only [systemFetches, hmake.capacity, hmake.watchesTraffic, hcpu, hmemory, hpartitions,
    hquestions, hwatched]

/-- Where the questions about an instance have the same answers the same is fetched, and
the same usage is left. -/
theorem fetches_congr {a a' : Answers} {id : String} {i : Instance}
    (h : SameAnswers (.workload id) m a a') (hi : m.instances.get? id = some i) :
    i.fetches a' m.watchesTraffic id = i.fetches a m.watchesTraffic id ∧
      i.usageAfter a' id = i.usageAfter a id := by
  obtain ⟨husage, howned, htraffic⟩ := h i hi
  have hpartitions : (i.partitions.mapIdx fun position p =>
        (i.ownedOn a' id position p).toOption) =
      i.partitions.mapIdx fun position p => (i.ownedOn a id position p).toOption :=
    mapIdx_congr fun position p hp => by
      rw [Instance.ownedOn, howned position p hp, Instance.ownedOn]
  have hquestions : (i.partitions.mapIdx fun position p => (Probe.owned p.path i.uid i.gid,
        Fetches.failure p.name (i.ownedOn a' id position p))) =
      i.partitions.mapIdx fun position p => (Probe.owned p.path i.uid i.gid,
        Fetches.failure p.name (i.ownedOn a id position p)) :=
    mapIdx_congr fun position p hp => by
      rw [Instance.ownedOn, howned position p hp, Instance.ownedOn]
  have hwatched : Instance.traffic? a' m.watchesTraffic id =
      Instance.traffic? a m.watchesTraffic id := by
    unfold Instance.traffic?
    cases hwatch : m.watchesTraffic with
    | false => rfl
    | true =>
      obtain ⟨hcounters, hanswer⟩ := htraffic hwatch
      rw [hcounters]
      cases hhas : a.hasInstanceCounters id with
      | false => rfl
      | true => rw [hanswer hhas]
  constructor
  · simp only [Instance.fetches, husage, hpartitions, hquestions, hwatched]
  · simp only [Instance.usageAfter, husage]

theorem alertEvents_congr (hmake : SameMake m m') (notice : Notice) (record : AlertRecord) :
    m'.alertEvents notice record = m.alertEvents notice record := by
  rw [alertEvents, hmake.sendsAlerts, alertEvents]

/-- **A poll of twins** with the same answers about the entity sets off the same and
leaves twins. -/
theorem Twin.poll (h : Twin entity m m') {a a' : Answers} (ha : SameAnswers entity m a a')
    (now : Timestamp) :
    Twin entity (m.step (.poll a now)).1 (m'.step (.poll a' now)).1 ∧
      m'.entityAlertEvents entity a' now = m.entityAlertEvents entity a now := by
  obtain ⟨hmake, hrecord⟩ := h
  have hmake' : SameMake (m.step (.poll a now)).1 (m'.step (.poll a' now)).1 :=
    ((m.step_sameMake _).symm.trans hmake).trans (m'.step_sameMake _)
  cases entity with
  | node =>
    have hsystem : m'.system = m.system := hrecord
    have hfetches := systemFetches_congr hmake ha
    refine ⟨⟨hmake', ?_⟩, ?_⟩
    · show m'.systemPolled a' now = m.systemPolled a now
      rw [systemPolled, hsystem, hfetches, systemPolled]
    · show m'.systemAlertEvents a' now = m.systemAlertEvents a now
      simp only [systemAlertEvents, hsystem, hfetches, hmake.nodeId, alertEvents_congr hmake]
  | workload id =>
    have hget : m'.instances.get? id = m.instances.get? id := hrecord
    cases hi : m.instances.get? id with
    | none =>
      refine ⟨⟨hmake', ?_⟩, ?_⟩
      · show (m'.poll a' now).1.instances.get? id = (m.poll a now).1.instances.get? id
        rw [get?_poll, get?_poll, hget, hi, Option.map_none, Option.map_none]
      · simp only [entityAlertEvents, hget, hi, Option.elim_none]
    | some i =>
      obtain ⟨hfetches, husage⟩ := fetches_congr ha hi
      refine ⟨⟨hmake', ?_⟩, ?_⟩
      · show (m'.poll a' now).1.instances.get? id = (m.poll a now).1.instances.get? id
        rw [get?_poll, get?_poll, hget, hi, Option.map_some, Option.map_some, Instance.poll,
          hmake.watchesTraffic, hfetches, husage, Instance.poll]
      · simp only [entityAlertEvents, hget, hi, Option.elim_some, instanceAlertEvents,
          hmake.watchesTraffic, hfetches, alertEvents_congr hmake]

/-! ### Starts and stops of twins -/

/-- The record that a start makes of an instance, if it registers it. -/
def registered? (m : Monitor) (id : String) (params : InstanceParams) : Option Instance :=
  if isInstanceId id then
    (m.buildInstance id params).result.toOption.map fun processors =>
      Instance.fresh params processors m.settings.window
  else none

theorem registered?_congr (hmake : SameMake m m') (id : String) (params : InstanceParams) :
    m'.registered? id params = m.registered? id params := by
  rw [registered?, buildInstance, hmake.capacity, hmake.settings, registered?, buildInstance]

/-- A start makes a record where there is none, and keeps every record that there is. -/
theorem get?_start (m : Monitor) (id : String) (params : InstanceParams) :
    (m.start id params).monitor.instances.get? id =
      (m.instances.get? id).or (m.registered? id params) := by
  unfold start registered?
  by_cases hid : isInstanceId id = true
  · by_cases hknown : m.instances.contains id = true
    · obtain ⟨i, hi⟩ := Option.isSome_iff_exists.mp hknown
      simp only [hid, hknown, Bool.not_true, Bool.false_eq_true, if_false, if_true, hi,
        Option.some_or]
    · have hnone : m.instances.get? id = none := by
        simpa only [Registry.contains, Bool.not_eq_true, Option.isSome_eq_false_iff,
          Option.isNone_iff_eq_none] using hknown
      simp only [hid, hknown, Bool.not_true, Bool.false_eq_true, if_false, if_true, hnone,
        Option.none_or]
      cases hbuilt : (m.buildInstance id params).result with
      | error fault => exact hnone
      | ok processors => simp [Except.toOption]
  · have hnot : isInstanceId id = false := by simpa only [Bool.not_eq_true] using hid
    simp only [hnot, Bool.not_false, Bool.false_eq_true, if_true, if_false, Option.or_none]

/-- **The same operation on twins** leaves twins. -/
theorem Twin.both (h : Twin entity m m') (op : Operation) :
    Twin entity (m.step op).1 (m'.step op).1 := by
  by_cases hop : Foreign entity op
  · exact (h.left hop).right hop
  · have hmake : SameMake (m.step op).1 (m'.step op).1 :=
      ((m.step_sameMake op).symm.trans h.make).trans (m'.step_sameMake op)
    cases op with
    | poll a now => exact (h.poll (SameAnswers.refl entity m a) now).1
    | send now => exact h
    | query => exact absurd trivial hop
    | start id params =>
      obtain rfl : entity = .workload id := not_not.mp hop
      refine ⟨hmake, ?_⟩
      show (m'.start id params).monitor.instances.get? id =
        (m.start id params).monitor.instances.get? id
      rw [get?_start, get?_start, h.record, registered?_congr h.make]
    | stop id =>
      obtain rfl : entity = .workload id := not_not.mp hop
      refine ⟨hmake, ?_⟩
      show (m'.stop id).monitor.instances.get? id = (m.stop id).monitor.instances.get? id
      rw [(m'.stop_monitor id).2.2, (m.stop_monitor id).2.2, if_pos rfl, if_pos rfl]

/-! ### Runs of twins -/

theorem entryIn_congr (h : Twin entity m m') (now : Timestamp) :
    entryIn entity m'.instances.ids (m'.snapshot now) =
      entryIn entity m.instances.ids (m.snapshot now) := by
  cases entity with
  | node =>
    have hsystem : m'.system = m.system := h.record
    simp only [entryIn, snapshot, hsystem]
  | workload id =>
    have hget : m'.instances.get? id = m.instances.get? id := h.record
    rw [entryIn_snapshot, entryIn_snapshot, hget]

/-- The same operation tells the same of twins. -/
theorem tell_congr (h : Twin entity m m') (op : Operation) :
    tell entity m' op = tell entity m op := by
  cases op with
  | poll a now => rw [tell, (h.poll (SameAnswers.refl entity m a) now).2, tell]
  | send now => rw [tell, entryIn_congr h, tell]
  | start id params => rfl
  | stop id => rfl
  | query => rfl

theorem tell_of_foreign {op : Operation} (h : Foreign entity op) : tell entity m op = [] := by
  cases op with
  | poll a now => exact h.elim
  | send now => exact h.elim
  | start id params => rfl
  | stop id => rfl
  | query => rfl

/-- Alike runs leave twins, and tell the same of the entity. -/
theorem Twin.after {ops ops' : List Operation} (hrun : Alike entity m ops ops')
    (h : Twin entity m m') :
    Twin entity (m.after ops) (m'.after ops') ∧ told entity m' ops' = told entity m ops := by
  induction hrun generalizing m' with
  | nil => exact ⟨h, rfl⟩
  | poll ha _ ih =>
    obtain ⟨htwin, hevents⟩ := h.poll ha _
    obtain ⟨hafter, htold⟩ := ih htwin
    refine ⟨hafter, ?_⟩
    rw [told, told, tell, tell, hevents, htold]
  | both _ ih =>
    obtain ⟨hafter, htold⟩ := ih (h.both _)
    refine ⟨hafter, ?_⟩
    rw [told, told, tell_congr h, htold]
  | left hop _ ih =>
    obtain ⟨hafter, htold⟩ := ih (h.left hop)
    refine ⟨hafter, ?_⟩
    rw [told, tell_of_foreign hop, List.nil_append, htold]
  | right hop _ ih =>
    obtain ⟨hafter, htold⟩ := ih (h.right hop)
    refine ⟨hafter, ?_⟩
    rw [told, tell_of_foreign hop, List.nil_append, htold]

/-- **An entity is isolated from the others.** Two runs of a monitor that differ only in
what is done to the other entities and in what these are answered leave the same
record of the entity, with its reading, its window, its processors and its usage,
tell the same alerts and the same entries in snapshots in the same order, and give
the same average of an instance. -/
theorem isolation {ops ops' : List Operation} (h : Alike entity m ops ops') :
    SameRecord entity (m.after ops) (m.after ops') ∧
      told entity m ops' = told entity m ops ∧
      ∀ id, entity = .workload id →
        (m.after ops').instanceAverage id = (m.after ops).instanceAverage id := by
  obtain ⟨htwin, htold⟩ := (Twin.refl entity m).after h
  refine ⟨htwin.record, htold, ?_⟩
  rintro id rfl
  have hget : (m.after ops').instances.get? id = (m.after ops).instances.get? id := htwin.record
  rw [instanceAverage, hget, instanceAverage]

/-- The answers of a busy node, where the sources of all instances but one fail. -/
def onlyKnown (id : String) : Answers :=
  { (underLoad 95 none).answers with
    usage := fun other usage =>
      if other = id then ({ usage with ram := usage.ram + 600 }, none)
      else (usage, some (.unknownInstance other)) }

/-- A run with one worker on a quiet node. -/
def aloneRun : List Operation :=
  [.start "a" worker, .poll (underLoad 10 none).answers ⟨1000, false⟩, .send ⟨2000, false⟩]

/-- The same run on a busy node, with a neighbour that comes, fails and goes. -/
def besideRun : List Operation :=
  [.start "b" worker, .start "a" worker, .poll (onlyKnown "a") ⟨1000, false⟩, .query, .stop "b",
    .send ⟨2000, false⟩]

/-- The node tells the runs apart, the worker does not. -/
theorem isolation_neighbour :
    (smallMonitor.after besideRun).system ≠ (smallMonitor.after aloneRun).system ∧
      Alike (.workload "a") smallMonitor aloneRun besideRun ∧
      told (.workload "a") smallMonitor besideRun = told (.workload "a") smallMonitor aloneRun ∧
      (smallMonitor.after besideRun).instanceAverage "a" =
        .ok ⟨0, 600, [⟨"home", 7⟩], 0, 0, ⟨1000, false⟩⟩ := by
  have halike : Alike (.workload "a") smallMonitor aloneRun besideRun := by
    refine .right ?_ (.both (.poll ?_ (.right trivial (.right ?_ (.both .nil)))))
    · exact fun he => absurd he (by decide)
    · exact fun _ _ => ⟨rfl, fun _ _ _ => rfl, fun _ => ⟨rfl, fun _ => rfl⟩⟩
    · exact fun he => absurd he (by decide)
  obtain ⟨-, htold, haverage⟩ := isolation halike
  exact ⟨by decide +kernel, halike, htold, (haverage "a" rfl).trans (by rfl)⟩

end Monitor

end QuotaWatch
