/-
# Starting an instance and stopping it again

A run that starts an instance, goes on and stops it ends in the monitor that the same
run ends in without the instance: nothing that was fetched for it is left anywhere.
In between the two monitors are twins for every other entity (`Monitor.Beside`), each
operation keeps them so (`Monitor.Beside.step`), and behind the stop the instance is in
neither.

What a start registers depends on its parameters and on what the monitor was built with
alone. So an instance that is stopped and started again is as at its first start: of
what was known of it before nothing is left (`Instance.IsPristine`).

Key definitions: `Answers.SameBut`, `WithoutFetches`, `Monitor.Beside`, `Instance.IsPristine`.
Key theorems: `Monitor.Beside.after`, `Monitor.after_start_stop`,
`Instance.isPristine_fresh`, `Monitor.round_trip`.
-/
import Mathlib.Data.List.Forall2
import QuotaWatch.Proofs.Monitor.Origin

namespace QuotaWatch

open Time

/-! ### Runs without the fetches of an instance -/

/-- Whatever is asked about another entity than an instance has the same answer. -/
def Answers.SameBut (id : String) (a a' : Answers) : Prop :=
  ∀ (entity : EntityId) (m : Monitor), entity ≠ .workload id → SameAnswers entity m a a'

/-- An operation of a run in which an instance is live, and the same without the instance:
both spare its registration, and they may differ in what is fetched for it. -/
inductive WithoutFetches (id : String) : Operation → Operation → Prop
  | poll {a a' : Answers} {now : Timestamp} :
    a.SameBut id a' → WithoutFetches id (.poll a now) (.poll a' now)
  | same {op : Operation} : op.isAbout id = false → WithoutFetches id op op

namespace Monitor

variable {m m' : Monitor} {id : String}

/-- Two monitors cannot be told apart by any entity but the instance under an id. -/
def Beside (id : String) (m m' : Monitor) : Prop :=
  ∀ entity, entity ≠ .workload id → Twin entity m m'

/-- **One operation keeps monitors beside each other.** -/
theorem Beside.step (h : Beside id m m') {op op' : Operation} (hop : WithoutFetches id op op') :
    Beside id (m.step op).1 (m'.step op').1 := by
  intro entity hentity
  cases hop with
  | poll ha => exact ((h entity hentity).poll (ha entity m hentity) _).1
  | same _ => exact (h entity hentity).both op

theorem Beside.after {ops ops' : List Operation} (h : Beside id m m')
    (hops : List.Forall₂ (WithoutFetches id) ops ops') :
    Beside id (m.after ops) (m'.after ops') := by
  induction hops generalizing m m' with
  | nil => exact h
  | cons hop _ ih => exact ih (h.step hop)

/-- So does a start or a stop of the instance in one of them. -/
theorem Beside.left (h : Beside id m m') {op : Operation} (hop : op.isAbout id = true) :
    Beside id (m.step op).1 m' := by
  intro entity hentity
  refine (h entity hentity).left ?_
  cases op with
  | start other params =>
    obtain rfl : other = id := beq_iff_eq.mp hop
    exact hentity
  | stop other =>
    obtain rfl : other = id := beq_iff_eq.mp hop
    exact hentity
  | _ => cases hop

/-- Monitors beside each other are the same where they hold the same record of the instance. -/
theorem Beside.eq (h : Beside id m m')
    (hget : m'.instances.get? id = m.instances.get? id) : m' = m := by
  have hnode := h .node EntityId.noConfusion
  have hsystem : m'.system = m.system := hnode.record
  have hinstances : m'.instances = m.instances := by
    refine Registry.ext_get? fun other => ?_
    by_cases hother : other = id
    · rw [hother, hget]
    · exact (h (.workload other) fun he => hother (EntityId.workload.inj he)).record
  obtain ⟨hmake, -⟩ := hnode
  cases m with
  | mk nodeId settings capacity watchesTraffic sendsAlerts system instances =>
    cases m' with
    | mk nodeId' settings' capacity' watchesTraffic' sendsAlerts' system' instances' =>
      obtain ⟨rfl, rfl, rfl, rfl, rfl⟩ := hmake
      cases hsystem
      cases hinstances
      rfl

/-- Where nothing starts an instance it does not come to be. -/
theorem get?_after_of_spared (habsent : m.instances.get? id = none) {ops : List Operation}
    (hops : ∀ op ∈ ops, op.isAbout id = false) : (m.after ops).instances.get? id = none := by
  rcases origin habsent ops with ⟨hnone, -⟩ | ⟨before, params, behind, i, rfl, -⟩
  · exact hnone
  · have habout := hops (.start id params) (by simp)
    rw [Operation.isAbout, beq_self_eq_true] at habout
    cases habout

theorem spared_of_forall₂ {ops ops' : List Operation}
    (hops : List.Forall₂ (WithoutFetches id) ops ops') : ∀ op ∈ ops', op.isAbout id = false := by
  induction hops with
  | nil => simp
  | cons hop _ ih =>
    refine List.forall_mem_cons.mpr ⟨?_, ih⟩
    cases hop with
    | poll _ => rfl
    | same hop => exact hop

/-- **A start, a run and a stop leave what the run leaves alone.** -/
theorem after_start_stop (habsent : m.instances.get? id = none) (params : InstanceParams)
    {ops ops' : List Operation} (hops : List.Forall₂ (WithoutFetches id) ops ops') :
    m.after (.start id params :: ops ++ [.stop id]) = m.after ops' := by
  have hself : Beside id m m := fun entity _ => Twin.refl entity m
  have hstarted : Beside id (m.step (.start id params)).1 m :=
    hself.left (beq_self_eq_true id)
  have hstopped : Beside id (m.after (.start id params :: ops ++ [.stop id])) (m.after ops') := by
    rw [after_concat]
    exact (hstarted.after hops).left (beq_self_eq_true id)
  refine (hstopped.eq ?_).symm
  rw [get?_after_of_spared habsent (spared_of_forall₂ hops), after_concat, step,
    (stop_monitor _ id).2.2, if_pos rfl]

end Monitor

/-! ### Starting again -/

/-- Nothing has been measured of an instance, and no detector has begun to count. -/
structure Instance.IsPristine (i : Instance) (params : InstanceParams) : Prop where
  /-- No CPU time has been counted either. -/
  usage : i.usage = {}
  reading : i.entity.reading = Reading.zero (params.partitions.map (·.name))
  sampled : i.entity.sampled = false
  window : ∀ w ∈ i.entity.window, w.readings = []
  detectors : ∀ p ∈ i.entity.processors, p.detector.state = .normal none

theorem Instance.isPristine_fresh {params : InstanceParams} {processors : List Processor}
    (hfresh : ∀ p ∈ processors, p.IsFresh) (retention : Option Span) :
    (Instance.fresh params processors retention).IsPristine params where
  usage := rfl
  reading := rfl
  sampled := rfl
  window := by
    intro w hw
    obtain ⟨r, -, rfl⟩ := Option.map_eq_some_iff.mp hw
    rfl
  detectors := by
    intro p hp
    rw [hfresh p hp]

namespace Monitor

variable {b : Blueprint} {a₀ : Answers} {m : Monitor}

/-- **Starting an instance and stopping it again.** A start, a run that spares the instance
and a stop end in the monitor that the run alone ends in, whatever is answered about the
instance in between. A stop and a start that succeeds register the record that any first
start with the same parameters registers: nothing has been measured of it, and no
detector has begun to count. -/
theorem round_trip (hm : (build b a₀).result = .ok m) (ops : List Operation) (id : String)
    (params : InstanceParams) :
    ((m.after ops).instances.get? id = none →
      ∀ mid mid', List.Forall₂ (WithoutFetches id) mid mid' →
        (m.after ops).after (.start id params :: mid ++ [.stop id]) = (m.after ops).after mid') ∧
    let stopped := ((m.after ops).stop id).monitor
    (stopped.start id params).result = .ok () →
      ∃ i processors, (stopped.start id params).monitor.instances.get? id = some i ∧
        i.IsPristine params ∧
        implied id params.rules m.capacity (params.partitions.map (·.name)) = .ok processors ∧
        i.IsFrom params processors m.settings.window ∧
        ∀ first, (∀ op ∈ first, op.isAbout id = false) →
          ((m.after first).start id params).result = .ok () ∧
            ((m.after first).start id params).monitor.instances.get? id = some i := by
  refine ⟨fun habsent mid mid' hmid => after_start_stop habsent params hmid, ?_⟩
  intro stopped hstart
  have hmake : SameMake m stopped := (m.after_sameMake ops).trans ((m.after ops).stop_monitor id).1
  have habsent : stopped.instances.get? id = none := by
    rw [((m.after ops).stop_monitor id).2.2, if_pos rfl]
  obtain ⟨i, hi⟩ := Option.isSome_iff_exists.mp ((result_start_of_absent habsent params).mp hstart)
  have hbuilt : m.registered? id params = some i := by rw [← registered?_congr hmake, hi]
  obtain ⟨-, processors, himplied, hfresh⟩ := registered?_eq_some hbuilt
  have hprocessors : ∀ p ∈ processors, p.IsFresh := fun p hp => ((implied_ok himplied).2 p hp).1
  refine ⟨i, processors, ?_, ?_, himplied, ?_, fun first hfirst => ?_⟩
  · rw [get?_start, habsent, hi, Option.none_or]
  · rw [hfresh]
    exact Instance.isPristine_fresh hprocessors _
  · rw [hfresh]
    exact Instance.isFrom_fresh params hprocessors _
  · -- a first start, whenever it is made
    have hnone := get?_after_of_spared (get?_of_build hm id) hfirst
    have hregistered : (m.after first).registered? id params = some i := by
      rw [registered?_after, hbuilt]
    refine ⟨(result_start_of_absent hnone params).mpr ?_, ?_⟩
    · rw [hregistered, Option.isSome_some]
    · rw [get?_start, hnone, hregistered, Option.none_or]

/-- The answers of a busy node where the source of one instance fails. -/
def withoutUsage (id : String) : Answers :=
  { (underLoad 95 none).answers with
    usage := fun other usage =>
      if other = id then (usage, some (.unknownInstance other))
      else (underLoad 95 none).answers.usage other usage }

theorem sameBut_withoutUsage (id : String) :
    (underLoad 95 none).answers.SameBut id (withoutUsage id) := by
  intro entity m hentity
  cases entity with
  | node => exact ⟨rfl, rfl, fun _ _ _ => rfl, fun _ => rfl⟩
  | workload other =>
    have hother : other ≠ id := fun he => hentity (congrArg EntityId.workload he)
    exact fun i _ => ⟨if_neg hother, fun _ _ _ => rfl, fun _ => ⟨rfl, fun _ => rfl⟩⟩

/-- A worker is started beside another one and stopped behind a poll: nothing is left of it.
One that has been polled twice is stopped and started again: it is as at its first start. -/
theorem round_trip_worker :
    (smallMonitor.after [.start "b" worker]).after
        (.start "a" worker :: [.poll (underLoad 95 none).answers ⟨1000, false⟩, .stop "b",
          .send ⟨2000, false⟩] ++ [.stop "a"]) =
      (smallMonitor.after [.start "b" worker]).after
        [.poll (withoutUsage "a") ⟨1000, false⟩, .stop "b", .send ⟨2000, false⟩] ∧
    ∃ i, (((smallMonitor.after twoPolls).stop "a").monitor.start "a" worker).monitor.instances.get?
        "a" = some i ∧ i.IsPristine worker ∧
      (smallMonitor.start "a" worker).monitor.instances.get? "a" = some i := by
  constructor
  · refine (round_trip build_smallNode [.start "b" worker] "a" worker).1 rfl _ _ ?_
    exact .cons (.poll (sameBut_withoutUsage "a")) (.cons (.same rfl) (.cons (.same rfl) .nil))
  · obtain ⟨i, -, hget, hpristine, -, -, hfirst⟩ :=
      (round_trip build_smallNode twoPolls "a" worker).2 rfl
    exact ⟨i, hget, hpristine, (hfirst [] (List.forall_mem_nil _)).2⟩

end Monitor

end QuotaWatch
