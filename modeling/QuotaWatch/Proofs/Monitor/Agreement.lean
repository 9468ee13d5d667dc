/-
# Where the average agrees with the reading

A reading has an entry for every partition of its entity, by position, and an average has
one for every name. So they have the same names exactly where no two partitions share a
name. There the average of readings with the same figures is the last of them, and nowhere
else (`Window.averageOf_eq_iff`).

The partitions of the settings are told apart by their names, or the settings do not pass
(`Settings.nodup_partitions`). Nothing is asked of those that the node info tells, nor of
those of an instance: two of one name are measured apart, and their average has one entry
(`Monitor.not_agreement`).

Key definitions: `Reading.SameFigures`, `Entity.KeepsNames`.
Key theorems: `Window.names_averageOf`, `Window.averageOf_eq_iff`, `Settings.nodup_partitions`,
`Monitor.agreement_of_run`.
-/
import QuotaWatch.Proofs.Monitor.Attribution
import QuotaWatch.Proofs.Monitor.Averages
import QuotaWatch.Proofs.Window.Average

namespace QuotaWatch

open Time

/-! ### Averages of equal figures -/

/-- Two readings differ in their times at most. -/
def Reading.SameFigures (r r' : Reading) : Prop := r = { r' with timestamp := r.timestamp }

instance (r r' : Reading) : Decidable (r.SameFigures r') :=
  inferInstanceAs (Decidable (_ = _))

/-- The mean of equal amounts is each of them. -/
theorem IsMean.eq_of_forall_eq {amounts : List UInt64} {mean figure : UInt64}
    (h : IsMean amounts mean) (hsame : ∀ a ∈ amounts, a = figure) : mean = figure := by
  obtain ⟨least, hleast, hle⟩ := h.least
  obtain ⟨greatest, hgreatest, hge⟩ := h.greatest
  rw [hsame least hleast] at hle
  rw [hsame greatest hgreatest] at hge
  exact UInt64.le_antisymm hge hle

namespace Window

theorem eraseDups_eq_self_iff {names : List String} : names.eraseDups = names ↔ names.Nodup := by
  constructor
  · intro h
    exact h ▸ nodup_eraseDups names
  · intro h
    induction names using List.reverseRecOn with
    | nil => rfl
    | append_singleton names name ih =>
      obtain ⟨hnames, -, hapart⟩ := List.nodup_append.mp h
      have hnew : name ∉ names := fun hmem => hapart name hmem name List.mem_cons_self rfl
      rw [eraseDups_concat, if_neg hnew, ih hnames]

/-- Names that are there already add none. -/
theorem eraseDups_append_of_subset {names more : List String} (h : more ⊆ names) :
    (names ++ more).eraseDups = names.eraseDups := by
  have hnone : more.removeAll names = [] :=
    List.filter_eq_nil_iff.mpr fun name hname => by simp [h hname]
  rw [List.eraseDups_append, hnone, List.eraseDups_nil, List.append_nil]

/-- Entries under the same names are the same, if the names are apart and none is new. -/
theorem entries_eq {ps qs : List PartitionUsage} (hnames : ps.map (·.name) = qs.map (·.name))
    (hnodup : (qs.map (·.name)).Nodup) (hmem : ps ⊆ qs) : ps = qs := by
  have hlength : ps.length = qs.length := by simpa using congrArg List.length hnames
  refine List.ext_getElem hlength fun position hp hq => ?_
  have hname : ps[position].name = qs[position].name := by
    simpa [hp, hq] using congrArg (·[position]?) hnames
  exact List.inj_on_of_nodup_map hnodup (hmem (List.getElem_mem hp)) (List.getElem_mem hq) hname

section Average

variable {readings : List Reading} {latest : Reading}

/-- **The average of readings with the same names** has each of the names once. -/
theorem names_averageOf {names : List String} (hne : readings ≠ [])
    (hnames : ∀ r ∈ readings, r.partitions.map (·.name) = names) (latest : Reading) :
    (averageOf readings latest).partitions.map (·.name) = names.eraseDups := by
  obtain ⟨first, rest, rfl⟩ := List.exists_cons_of_ne_nil hne
  obtain ⟨hfirst, hrest⟩ := List.forall_mem_cons.mp hnames
  have hknown : (rest.flatMap (·.partitions)).map (·.name) ⊆ names := by
    intro name hname
    obtain ⟨p, hp, rfl⟩ := List.mem_map.mp hname
    obtain ⟨r, hr, hp⟩ := List.mem_flatMap.mp hp
    rw [← hrest r hr]
    exact List.mem_map.mpr ⟨p, hp, rfl⟩
  rw [(isAverage_averageOf hne latest).names, List.flatMap_cons, List.map_append, hfirst,
    eraseDups_append_of_subset hknown]

/-- An entry of the average of readings with the same figures is one of theirs. -/
theorem partitions_averageOf_subset (hne : readings ≠ [])
    (hsame : ∀ r ∈ readings, r.partitions = latest.partitions)
    (hnodup : (latest.partitions.map (·.name)).Nodup) :
    (averageOf readings latest).partitions ⊆ latest.partitions := by
  intro p hp
  have haverage := isAverage_averageOf hne latest
  have hmean := haverage.partitions p hp
  have hentries : ∀ q ∈ readings.flatMap (·.partitions), q ∈ latest.partitions := by
    intro q hq
    obtain ⟨r, hr, hq⟩ := List.mem_flatMap.mp hq
    exact hsame r hr ▸ hq
  -- the least amount under the name of the entry belongs to the only entry of that name
  obtain ⟨least, hleast, -⟩ := hmean.least
  obtain ⟨q, hq, rfl⟩ := List.mem_map.mp hleast
  obtain ⟨hq, hname⟩ := List.mem_filter.mp hq
  have hname : q.name = p.name := of_decide_eq_true hname
  have hused : p.used = q.used := by
    refine hmean.eq_of_forall_eq fun amount hamount => ?_
    obtain ⟨q', hq', rfl⟩ := List.mem_map.mp hamount
    obtain ⟨hq', hname'⟩ := List.mem_filter.mp hq'
    have hname' : q'.name = p.name := of_decide_eq_true hname'
    rw [List.inj_on_of_nodup_map hnodup (hentries q' hq') (hentries q hq)
      (hname'.trans hname.symm)]
  have heq : p = q := by
    cases p
    cases q
    cases hname
    cases hused
    rfl
  exact heq ▸ hentries q hq

/-- **The average of readings with the same figures** is the last of them exactly if the names
of its partitions are apart. -/
theorem averageOf_eq_iff (hne : readings ≠ []) (hsame : ∀ r ∈ readings, r.SameFigures latest) :
    averageOf readings latest = latest ↔ (latest.partitions.map (·.name)).Nodup := by
  have hfigure : ∀ {α : Type} (figure : Reading → α),
      (∀ r time, figure { r with timestamp := time } = figure r) →
        ∀ r ∈ readings, figure r = figure latest := by
    intro α figure htime r hr
    exact (congrArg figure (hsame r hr)).trans (htime latest r.timestamp)
  have hpartitions := hfigure Reading.partitions fun _ _ => rfl
  have hnames := names_averageOf hne
    (fun r hr => congrArg (List.map (·.name)) (hpartitions r hr)) latest
  constructor
  · intro h
    rw [h] at hnames
    exact eraseDups_eq_self_iff.mp hnames.symm
  · intro hnodup
    have haverage := isAverage_averageOf hne latest
    have hmean : ∀ {figure : Reading → UInt64} {mean : UInt64},
        (∀ r time, figure { r with timestamp := time } = figure r) →
          IsMean (readings.map figure) mean → mean = figure latest := by
      intro figure mean htime hmean
      exact hmean.eq_of_forall_eq (List.forall_mem_map.mpr (hfigure figure htime))
    have hentries : (averageOf readings latest).partitions = latest.partitions :=
      entries_eq (hnames.trans (eraseDups_eq_self_iff.mpr hnodup)) hnodup
        (partitions_averageOf_subset hne hpartitions hnodup)
    have hcpu := hmean (fun _ _ => rfl) haverage.cpu
    have hram := hmean (fun _ _ => rfl) haverage.ram
    have hin := hmean (fun _ _ => rfl) haverage.inTraffic
    have hout := hmean (fun _ _ => rfl) haverage.outTraffic
    calc averageOf readings latest
        = ⟨(averageOf readings latest).cpu, (averageOf readings latest).ram,
            (averageOf readings latest).partitions, (averageOf readings latest).inTraffic,
            (averageOf readings latest).outTraffic, latest.timestamp⟩ := rfl
      _ = latest := by rw [hcpu, hram, hentries, hin, hout]

end Average

end Window

/-! ### Names of partitions -/

namespace Settings

theorem repeatedName_eq_none_iff : ∀ {names seen : List String},
    repeatedName seen names = none ↔ names.Nodup ∧ ∀ name ∈ names, name ∉ seen
  | [], _ => by simp [repeatedName]
  | name :: names, seen => by
    rw [repeatedName, List.nodup_cons, List.forall_mem_cons]
    by_cases hseen : name ∈ seen
    · simp [hseen]
    · rw [if_neg hseen, repeatedName_eq_none_iff]
      constructor
      · rintro ⟨hnodup, hnew⟩
        exact ⟨⟨fun hmem => hnew name hmem List.mem_cons_self, hnodup⟩, hseen,
          fun other hother hmem => hnew other hother (List.mem_cons_of_mem _ hmem)⟩
      · rintro ⟨⟨hfirst, hnodup⟩, -, hnew⟩
        refine ⟨hnodup, fun other hother hmem => ?_⟩
        rcases List.mem_cons.mp hmem with rfl | hmem
        · exact hfirst hother
        · exact hnew other hother hmem

/-- The partitions of settings that pass have names that are apart. -/
theorem nodup_partitions {s : Settings} (h : s.validate = .ok ()) :
    (s.partitions.map (·.name)).Nodup := by
  have hflaw := flaw_of_valid h
  have hnone : repeatedName [] (s.partitions.map (·.name)) = none := by
    unfold flaw at hflaw
    repeat' split at hflaw
    all_goals first
      | cases hflaw
      | exact Option.map_eq_none_iff.mp hflaw
  exact (repeatedName_eq_none_iff.mp hnone).1

end Settings

/-- Every reading in the window of an entity has the names of its present reading. -/
def Entity.KeepsNames (e : Entity) : Prop :=
  ∀ w, e.window = some w → ∀ r ∈ w.readings,
    r.partitions.map (·.name) = e.reading.partitions.map (·.name)

namespace Entity

variable {e : Entity}

theorem keepsNames_fresh (partitions : List String) (processors : List Processor)
    (retention : Option Span) : (Entity.fresh partitions processors retention).KeepsNames := by
  intro w hw r hr
  obtain ⟨span, -, rfl⟩ := Option.map_eq_some_iff.mp hw
  cases hr

/-- **A poll keeps the names**: it changes those of no reading. -/
theorem KeepsNames.poll (h : e.KeepsNames) (f : Fetches) (now : Timestamp) :
    (e.poll f now).KeepsNames := by
  intro w hw r hr
  rw [reading_poll, Reading.names_refresh]
  rcases mem_window_poll hw hr with rfl | ⟨before, hbefore, hr⟩
  · exact Reading.names_refresh _ f now
  · exact h before hbefore r hr

/-- An average that there is comes from a window, in which the present reading is the last. -/
theorem Fed.average_ok {retention : Option Span} {fetched : Prop} {name : String}
    {average : Reading} (h : e.Fed retention fetched) (haverage : e.average name = .ok average) :
    ∃ w, e.window = some w ∧ e.reading ∈ w.readings ∧
      average = Window.averageOf w.readings e.reading := by
  cases hw : e.window with
  | none =>
    rw [Entity.average, hw] at haverage
    cases haverage
  | some w =>
    cases hs : e.sampled with
    | false =>
      simp only [Entity.average, hw, Window.average, h.empty hs w hw, List.getLast?_nil] at haverage
      cases haverage
    | true =>
      have hlast := h.latest hs w hw
      simp only [Entity.average, hw, Window.average, hlast] at haverage
      cases haverage
      exact ⟨w, rfl, List.mem_of_getLast? hlast, rfl⟩

end Entity

namespace Monitor

variable {b : Blueprint} {a₀ : Answers} {m : Monitor}

/-- A node is measured on the partitions of the settings, whose names are apart, or, where
there are none, on those that it tells. -/
theorem names_capacity (hm : (build b a₀).result = .ok m) :
    (b.settings.partitions ≠ [] →
      m.capacity.partitions.map (·.name) = b.settings.partitions.map (·.name) ∧
        (m.capacity.partitions.map (·.name)).Nodup) ∧
    (b.settings.partitions = [] → ∃ info, b.nodeInfo = some (.ok info) ∧
      m.capacity.partitions.map (·.name) = info.partitions.map (·.name)) := by
  obtain ⟨info, capacity, rules, processors, hvalid, hinfo, hcapacity, -, -, rfl⟩ := build_ok hm
  have hgathered := (Capacity.gather_ok hcapacity).2
  constructor
  · intro hchosen
    have hnames : capacity.partitions.map (·.name) = b.settings.partitions.map (·.name) := by
      simpa only [List.map_map, Function.comp_def] using
        congrArg (List.map (·.1)) (hgathered.configured hchosen)
    exact ⟨hnames, hnames ▸ Settings.nodup_partitions hvalid⟩
  · intro htold
    have hnames : capacity.partitions.map (·.name) = info.partitions.map (·.name) := by
      simpa only [List.map_map, Function.comp_def] using
        congrArg (List.map (·.1)) (hgathered.told htold)
    exact ⟨info, askNodeInfo_ok hinfo, hnames⟩

/-- **When the average agrees with the reading.** The reading of an entity that has an
average has the names of the partitions that it was registered with, in their order, and the
average has each of these names once. The two have the same names exactly if no two
partitions share a name, and exactly then the average is the reading where all that the
window holds has the same figures. The partitions of the node are those of the settings,
which share no name, or those that the node tells. -/
theorem agreement_of_run (hm : (build b a₀).result = .ok m) (ops : List Operation)
    {entity : EntityId} {e : Entity} (he : (m.after ops).entity? entity = some e)
    {name : String} {average : Reading} (haverage : e.average name = .ok average) :
    ∃ t, m.terms b ops entity = some t ∧
      e.reading.partitions.map (·.name) = t.partitions ∧
      average.partitions.map (·.name) = t.partitions.eraseDups ∧
      (average.partitions.map (·.name) = e.reading.partitions.map (·.name) ↔
        t.partitions.Nodup) ∧
      (∀ w, e.window = some w → (∀ r ∈ w.readings, ∀ r' ∈ w.readings, r.SameFigures r') →
        (average = e.reading ↔ t.partitions.Nodup)) ∧
      (entity = .node →
        (b.settings.partitions ≠ [] →
          t.partitions = b.settings.partitions.map (·.name) ∧ t.partitions.Nodup) ∧
        (b.settings.partitions = [] → ∃ info, b.nodeInfo = some (.ok info) ∧
          t.partitions = info.partitions.map (·.name))) := by
  obtain ⟨t, ht, himplied⟩ := implied_of_run hm ops he
  obtain ⟨w, hw, hmem, rfl⟩ := (fed_entity hm ops he).average_ok haverage
  have hne : w.readings ≠ [] := List.ne_nil_of_mem hmem
  have hkept : e.KeepsNames := entity_of_run hm
    (fun partitions processors retention _ =>
      Entity.keepsNames_fresh partitions processors retention)
    (fun _ f _ now _ hbefore => hbefore.poll f now) he
  have hreading : e.reading.partitions.map (·.name) = t.partitions := himplied.carried
  have hnames : (Window.averageOf w.readings e.reading).partitions.map (·.name) =
      t.partitions.eraseDups :=
    Window.names_averageOf hne (fun r hr => (hkept w hw r hr).trans hreading) e.reading
  refine ⟨t, ht, hreading, hnames, ?_, fun w' hw' hsame => ?_, ?_⟩
  · rw [hnames, hreading]
    exact Window.eraseDups_eq_self_iff
  · cases hw.symm.trans hw'
    rw [← hreading]
    exact Window.averageOf_eq_iff hne fun r hr => hsame r hr e.reading hmem
  · rintro rfl
    obtain rfl : _ = t := Option.some.inj ht
    exact names_capacity hm

/-- Two polls with the same answers. -/
def steadyPolls : List Operation :=
  [.poll (underLoad 95 none).answers ⟨1000, false⟩, .poll (underLoad 95 none).answers ⟨2000, false⟩]

/-- The average of a node is its reading behind two polls with the same figures, and that of
an instance has the partition that the instance was started with. -/
theorem agreement_of_run_steadyPolls :
    (∃ average, (smallMonitor.after steadyPolls).system.average systemName = .ok average ∧
      average = (smallMonitor.after steadyPolls).system.reading ∧ average.cpu = 9500) ∧
    ∃ e average,
      (smallMonitor.after (.start "a" worker :: steadyPolls)).entity? (.workload "a") = some e ∧
        e.average "a" = .ok average ∧ average.partitions.map (·.name) = ["home"] := by
  have hnode : ∃ e average w, (smallMonitor.after steadyPolls).entity? .node = some e ∧
      e.average systemName = .ok average ∧ e.window = some w ∧
      (∀ r ∈ w.readings, ∀ r' ∈ w.readings, r.SameFigures r') ∧ e.reading.cpu = 9500 :=
    ⟨_, _, _, rfl, rfl, rfl, by decide +kernel, by decide +kernel⟩
  have hworker : ∃ e average,
      (smallMonitor.after (.start "a" worker :: steadyPolls)).entity? (.workload "a") = some e ∧
        e.average "a" = .ok average := ⟨_, _, rfl, rfl⟩
  constructor
  · obtain ⟨e, average, w, he, haverage, hw, hsame, hcpu⟩ := hnode
    obtain ⟨t, ht, -, -, -, hconstant, -⟩ :=
      agreement_of_run build_smallNode steadyPolls he haverage
    obtain rfl : ⟨smallNode.rulesInForce, ["state"]⟩ = t := Option.some.inj ht
    have heq := (hconstant w hw hsame).mpr (List.nodup_singleton _)
    cases he
    exact ⟨average, haverage, heq, heq ▸ hcpu⟩
  · obtain ⟨e, average, he, haverage⟩ := hworker
    obtain ⟨t, ht, -, hnames, -⟩ :=
      agreement_of_run build_smallNode (.start "a" worker :: steadyPolls) he haverage
    obtain rfl : ⟨worker.rules, ["home"]⟩ = t := Option.some.inj ht
    exact ⟨e, average, he, haverage, hnames⟩

/-- An instance is measured on two directories under one name. -/
def doubled : InstanceParams where
  ident := { service := "worker" }
  partitions := [⟨"data", "/a"⟩, ⟨"data", "/b"⟩]

/-- The instance is started and polled once. -/
def doubledPoll : List Operation :=
  [.start "a" doubled, .poll (underLoad 95 none).answers ⟨1000, false⟩]

/-- Two partitions of one name pass. The reading has two entries, and the average of this very
reading has one. -/
theorem not_agreement : ∃ e w average,
    (smallMonitor.after doubledPoll).entity? (.workload "a") = some e ∧
      e.window = some w ∧ e.average "a" = .ok average ∧
      (∀ r ∈ w.readings, ∀ r' ∈ w.readings, r.SameFigures r') ∧
      average.partitions.map (·.name) ≠ e.reading.partitions.map (·.name) ∧
      average ≠ e.reading :=
  ⟨_, _, _, rfl, rfl, rfl, by decide +kernel, by decide +kernel, by decide +kernel⟩

end Monitor

end QuotaWatch
