/-
# What is read of a configuration

A setting is decoded from what stands at its path. It has its default exactly if nothing
stands there, and what stands there and cannot be decoded spoils the whole configuration
(`load_eq_ok_iff`). So the settings depend on what stands at each path and not on the order
in which the tables list their entries (`agentSettings?_congr`).

Key definitions: `Taken`, `SettingsAt`, `Loaded`, `Value.Alike`.
Key theorems: `settings?_table_iff`, `load_eq_ok_iff`, `settings?_congr`,
`agentSettings?_congr`.
-/
import Mathlib.Tactic.Common
import QuotaWatch.Config.Load

namespace QuotaWatch.Config

/-! ### Paths -/

namespace Value

theorem at?_cons (name : String) (names : List String) (v : Value) :
    v.at? (name :: names) = (v.entries.lookup name).bind (at? names) := rfl

theorem at?_table_single (name : String) (entries : List (String × Value)) :
    (Value.table entries).at? [name] = entries.lookup name := by
  rw [at?_cons]
  cases h : entries.lookup name <;> simp [Value.entries, h, at?]

theorem at?_append : ∀ (p q : List String) (v : Value), v.at? (p ++ q) = (v.at? p).bind (at? q)
  | [], q, v => by simp [at?]
  | name :: p, q, v => by
    rw [List.cons_append, at?_cons, at?_cons, Option.bind_assoc]
    exact congrArg _ (funext fun field => at?_append p q field)

end Value

open Value

/-! ### Fields -/

section Fields

variable {α : Type} {f : Value → Option α} {absent x : α}

/-- A setting is what is decoded from the value at its path, or the default if there is none. -/
def Taken (v : Value) (path : List String) (f : Value → Option α) (absent x : α) : Prop :=
  match v.at? path with
  | some field => f field = some x
  | none => x = absent

theorem may_table_iff {place : ℕ} {name : String} {entries : List (String × Value)} :
    (Value.table entries).may place name f absent = some x ↔
      Taken (.table entries) [name] f absent x := by
  unfold Taken may
  rw [at?_table_single]
  cases h : entries.lookup name with
  | none => simp [field?, h, isRecord, eq_comm]
  | some field => simp [field?, h]

/-- A setting in a table within a configuration has its path in the configuration. -/
theorem taken_append {v w : Value} {p q : List String} (h : v.at? p = some w) :
    Taken v (p ++ q) f absent x ↔ Taken w q f absent x := by
  unfold Taken
  rw [at?_append, h, Option.bind_some]

/-- Where there is no table there is no setting. -/
theorem taken_absent {v : Value} {p : List String} (q : List String) (h : v.at? p = none) :
    Taken v (p ++ q) f absent x ↔ x = absent := by
  unfold Taken
  rw [at?_append, h, Option.bind_none]

end Fields

/-! ### The settings of a monitor -/

/-- The settings of a monitor are those in the table at a path. -/
structure SettingsAt (v : Value) (path : List String) (s : Settings) : Prop where
  pollPeriod : ∃ ms, Taken v (path ++ ["poll_period_ms"]) word? 1000 ms ∧
    s.pollPeriod = .ofMillis ms
  sendPeriod : ∃ ms, Taken v (path ++ ["send_period_ms"]) (maybe? word?) none ms ∧
    s.sendPeriod = ms.map .ofMillis
  window : ∃ ms, Taken v (path ++ ["average_window_ms"]) (maybe? word?) none ms ∧
    s.window = ms.map .ofMillis
  partitions : Taken v (path ++ ["partitions"]) (list? partitionChoice?) [] s.partitions
  rules : Taken v (path ++ ["alert_rules"]) (maybe? ruleSet?) none s.rules
  buffer : Taken v (path ++ ["monitoring_buffer"]) word? 16 s.buffer

theorem settings?_table_iff {entries : List (String × Value)} {s : Settings} :
    settings? (.table entries) = some s ↔ SettingsAt (.table entries) [] s := by
  unfold settings?
  constructor
  · intro h
    simp only [Option.bind_eq_bind, Option.bind_eq_some_iff] at h
    obtain ⟨a, ha, b, hb, c, hc, d, hd, e, he, g, hg, ⟨⟩⟩ := h
    exact ⟨⟨a, may_table_iff.mp ha, rfl⟩, ⟨b, may_table_iff.mp hb, rfl⟩,
      ⟨c, may_table_iff.mp hc, rfl⟩, may_table_iff.mp hd, may_table_iff.mp he, may_table_iff.mp hg⟩
  · rintro ⟨⟨a, ha, hpoll⟩, ⟨b, hb, hsend⟩, ⟨c, hc, hwindow⟩, hd, he, hg⟩
    rw [may_table_iff.mpr ha, may_table_iff.mpr hb, may_table_iff.mpr hc, may_table_iff.mpr hd,
      may_table_iff.mpr he, may_table_iff.mpr hg]
    show some (Settings.mk _ _ _ _ _ _) = some s
    rw [← hpoll, ← hsend, ← hwindow]

/-- With no table at all the settings are the defaults. -/
theorem settingsAt_absent {v : Value} {path : List String} (h : v.at? path = none) :
    SettingsAt v path {} :=
  ⟨⟨1000, (taken_absent _ h).mpr rfl, rfl⟩, ⟨none, (taken_absent _ h).mpr rfl, rfl⟩,
    ⟨none, (taken_absent _ h).mpr rfl, rfl⟩, (taken_absent _ h).mpr rfl,
    (taken_absent _ h).mpr rfl, (taken_absent _ h).mpr rfl⟩

theorem SettingsAt.append {v w : Value} {p : List String} {s : Settings} (h : v.at? p = some w)
    (hw : SettingsAt w [] s) : SettingsAt v p s where
  pollPeriod := hw.pollPeriod.imp fun _ ⟨ht, he⟩ => ⟨(taken_append h).mpr ht, he⟩
  sendPeriod := hw.sendPeriod.imp fun _ ⟨ht, he⟩ => ⟨(taken_append h).mpr ht, he⟩
  window := hw.window.imp fun _ ⟨ht, he⟩ => ⟨(taken_append h).mpr ht, he⟩
  partitions := (taken_append h).mpr hw.partitions
  rules := (taken_append h).mpr hw.rules
  buffer := (taken_append h).mpr hw.buffer

/-! ### The settings of an agent -/

theorem agentSettings?_eq_some {nodeId : String} {v : Value} {s : AgentSettings} :
    agentSettings? nodeId v = some s ↔
      v.may 0 "node_id" text? nodeId = some s.nodeId ∧
      v.may 1 "node_type" text? "main" = some s.nodeType ∧
      v.may 2 "api_port" shortWord? 8080 = some s.apiPort ∧
      v.may 3 "cgroup_root" text? "/sys/fs/cgroup" = some s.cgroupRoot ∧
      v.may 4 "monitor" settings? {} = some s.monitor := by
  unfold agentSettings?
  constructor
  · intro h
    simp only [Option.bind_eq_bind, Option.bind_eq_some_iff] at h
    obtain ⟨a, ha, b, hb, c, hc, d, hd, e, he, ⟨⟩⟩ := h
    exact ⟨ha, hb, hc, hd, he⟩
  · rintro ⟨ha, hb, hc, hd, he⟩
    rw [ha, hb, hc, hd, he]
    rfl

/-- The settings of an agent are those of a configuration, for a node with this default id. -/
structure Loaded (v : Value) (nodeId : String) (s : AgentSettings) : Prop where
  nodeId : Taken v ["node_id"] text? nodeId s.nodeId
  nodeType : Taken v ["node_type"] text? "main" s.nodeType
  apiPort : Taken v ["api_port"] shortWord? 8080 s.apiPort
  cgroupRoot : Taken v ["cgroup_root"] text? "/sys/fs/cgroup" s.cgroupRoot
  monitor : Taken v ["monitor"] settings? {} s.monitor
  /-- Unless they are listed without their names, each of them is at its own path. -/
  settings : (∀ items, v.at? ["monitor"] ≠ some (.list items)) → SettingsAt v ["monitor"] s.monitor

theorem agentSettings?_table_iff {nodeId : String} {entries : List (String × Value)}
    {s : AgentSettings} :
    agentSettings? nodeId (.table entries) = some s ↔ Loaded (.table entries) nodeId s := by
  simp only [agentSettings?_eq_some, may_table_iff]
  constructor
  · rintro ⟨hid, htype, hport, hroot, hmonitor⟩
    refine ⟨hid, htype, hport, hroot, hmonitor, fun hlist => ?_⟩
    unfold Taken at hmonitor
    cases h : (Value.table entries).at? ["monitor"] with
    | none =>
      rw [h] at hmonitor
      rw [hmonitor]
      exact settingsAt_absent h
    | some field =>
      rw [h] at hmonitor
      cases field with
      | table inner => exact SettingsAt.append h (settings?_table_iff.mp hmonitor)
      | list items => exact absurd h (hlist items)
      | _ => cases hmonitor
  · intro h
    exact ⟨h.nodeId, h.nodeType, h.apiPort, h.cgroupRoot, h.monitor⟩

/-! ### Loading -/

/-- Laying a value over a place that starts with a name gives a table. -/
theorem exists_entries_setAt (name : String) (steps : List Step) (v target : Value) :
    ∃ entries, setAt (.name name :: steps) v target = .table entries := by
  cases steps with
  | nil =>
    rw [setAt]
    by_cases htable : ∃ incoming, v = .table incoming
    · obtain ⟨incoming, rfl⟩ := htable
      exact ⟨_, by rw [assign]⟩
    · exact ⟨_, assign_plain name target fun incoming hv => htable ⟨incoming, hv⟩⟩
  | cons step steps => exact ⟨_, by rw [setAt]; simp⟩

theorem readKey_eq_cons (key : String) : ∃ name steps, readKey key = .name name :: steps := by
  unfold readKey readKey?
  cases readName? key.toList with
  | none => exact ⟨key, [], rfl⟩
  | some read =>
    simp only [Option.bind_eq_bind, Option.bind_some]
    cases readSteps? read.2.length read.2 with
    | none => exact ⟨key, [], rfl⟩
    | some steps => exact ⟨read.1, steps, rfl⟩

/-- Whatever is laid over a table, it stays one. -/
theorem exists_entries_overlay (layer : List (String × Value)) :
    ∀ entries, ∃ entries', (Value.table entries).overlay layer = .table entries' := by
  induction layer with
  | nil => exact fun entries => ⟨entries, rfl⟩
  | cons entry layer ih =>
    intro entries
    obtain ⟨name, steps, hkey⟩ := readKey_eq_cons entry.1
    obtain ⟨entries', h⟩ := exists_entries_setAt name steps entry.2 (.table entries)
    have hfirst : (Value.table entries).overlay (entry :: layer) =
        (setAt (readKey entry.1) entry.2 (.table entries)).overlay layer := rfl
    rw [hfirst, hkey, h]
    exact ih entries'

/-- The layer of a file; one that is not there adds nothing. -/
def fileLayer? (lib : Library) (file : Option File) : Option (List (String × Value)) :=
  (file.map (File.layer? lib)).getD (some [])

/-- The configuration that the layer of a file makes. -/
def ofLayer (layer : List (String × Value)) : Value := (Value.table []).overlay layer

variable {lib : Library} {file : Option File} {environment : List (String × String)}

theorem layered?_eq (lib : Library) (file : Option File) (environment : List (String × String)) :
    layered? lib file environment =
      (fileLayer? lib file).map fun layer =>
        (ofLayer layer).overlay (environmentLayer environment) := by
  unfold layered?
  rw [← fileLayer?]
  cases fileLayer? lib file <;> rfl

theorem layered?_table {v : Value} (h : layered? lib file environment = some v) :
    ∃ entries, v = .table entries := by
  rw [layered?_eq, Option.map_eq_some_iff] at h
  obtain ⟨layer, -, rfl⟩ := h
  obtain ⟨entries, hfile⟩ := exists_entries_overlay layer []
  rw [ofLayer, hfile]
  exact exists_entries_overlay _ entries

theorem load_eq_ok {s : AgentSettings} : AgentSettings.load lib file environment = .ok s ↔
      ∃ entries, layered? lib file environment = some (.table entries) ∧
        agentSettings? (defaultNodeId environment) (.table entries) = some s ∧
        s.monitor.validate = .ok () := by
  unfold AgentSettings.load
  cases hlayered : layered? lib file environment with
  | none => simp
  | some v =>
    obtain ⟨entries, rfl⟩ := layered?_table hlayered
    dsimp only
    cases hsettings : agentSettings? (defaultNodeId environment) (.table entries) with
    | none => simp [hsettings]
    | some loaded =>
      dsimp only
      constructor
      · intro hload
        split at hload
        · cases hload
        · rename_i hvalid
          cases hload
          exact ⟨entries, rfl, hsettings, hvalid⟩
      · rintro ⟨_, ⟨⟩, hloaded, hvalid⟩
        obtain rfl : loaded = s := Option.some.inj (hsettings.symm.trans hloaded)
        rw [hvalid]

/-- **What settings are loaded.** Exactly those that the configuration has at their paths,
if those of the monitor hold. -/
theorem load_eq_ok_iff {v : Value} (h : layered? lib file environment = some v)
    {s : AgentSettings} : AgentSettings.load lib file environment = .ok s ↔
      Loaded v (defaultNodeId environment) s ∧ s.monitor.validate = .ok () := by
  obtain ⟨entries, rfl⟩ := layered?_table h
  rw [load_eq_ok, ← agentSettings?_table_iff]
  constructor
  · rintro ⟨entries', hlayered, hloaded⟩
    obtain rfl : entries = entries' := by
      rw [h] at hlayered
      cases hlayered
      rfl
    exact hloaded
  · exact fun hloaded => ⟨entries, h, hloaded⟩

/-! ### Configurations that hold the same -/

/-- The same stands at every path; what is in a table is told by the paths into it. -/
def Value.Alike (v w : Value) : Prop := ∀ path, (v.at? path).map bare = (w.at? path).map bare

namespace Value.Alike

variable {v w : Value}

theorem eq_or_tables (h : v.Alike w) :
    v = w ∨ ∃ entries entries', v = .table entries ∧ w = .table entries' := by
  have hbare : v.bare = w.bare := Option.some.inj (h [])
  cases v <;> cases w <;> simp_all [bare]

/-- Entries of one name are alike, or there are none. -/
theorem lookup (h : v.Alike w) (name : String) :
    (v.entries.lookup name = none ∧ w.entries.lookup name = none) ∨
      ∃ a b, v.entries.lookup name = some a ∧ w.entries.lookup name = some b ∧ a.Alike b := by
  have hpath : ∀ path, ((v.entries.lookup name).bind (at? path)).map bare =
      ((w.entries.lookup name).bind (at? path)).map bare := fun path => h (name :: path)
  cases hv : v.entries.lookup name with
  | none =>
    cases hw : w.entries.lookup name with
    | none => exact Or.inl ⟨rfl, rfl⟩
    | some b =>
      have := hpath []
      simp [hv, hw, at?] at this
  | some a =>
    cases hw : w.entries.lookup name with
    | none =>
      have := hpath []
      simp [hv, hw, at?] at this
    | some b =>
      refine Or.inr ⟨a, b, rfl, rfl, fun path => ?_⟩
      have := hpath path
      rwa [hv, hw] at this

/-- What is decoded without a look into tables. -/
theorem congr_bare {f : Value → Option α} (hf : ∀ v, f v.bare = f v) (h : v.Alike w) :
    f v = f w := by
  have hbare : v.bare = w.bare := Option.some.inj (h [])
  rw [← hf v, hbare, hf w]

theorem maybe? {f : Value → Option α} (hf : ∀ {a b : Value}, a.Alike b → f a = f b)
    (h : v.Alike w) : Value.maybe? f v = Value.maybe? f w := by
  rcases h.eq_or_tables with rfl | ⟨entries, entries', rfl, rfl⟩
  · rfl
  · exact congrArg (Option.map some) (hf h)

theorem may {f : Value → Option α} (hf : ∀ {a b : Value}, a.Alike b → f a = f b) (h : v.Alike w)
    (place : ℕ) (name : String) (absent : α) :
    v.may place name f absent = w.may place name f absent := by
  rcases h.eq_or_tables with rfl | ⟨entries, entries', rfl, rfl⟩
  · rfl
  · rcases h.lookup name with ⟨hv, hw⟩ | ⟨a, b, hv, hw, hab⟩
    · simp only [Value.entries] at hv hw
      simp [Value.may, field?, hv, hw, isRecord]
    · simp only [Value.entries] at hv hw
      simp [Value.may, field?, hv, hw, hf hab]

end Value.Alike

theorem word?_bare (v : Value) : v.bare.word? = v.word? := by cases v <;> rfl

theorem text?_bare (v : Value) : v.bare.text? = v.text? := by cases v <;> rfl

theorem shortWord?_bare (v : Value) : v.bare.shortWord? = v.shortWord? := by cases v <;> rfl

theorem list?_bare (f : Value → Option α) (v : Value) : list? f v.bare = list? f v := by
  cases v <;> rfl

theorem rule?_congr {v w : Value} (h : v.Alike w) : rule? v = rule? w := by
  rcases h.eq_or_tables with rfl | ⟨entries, entries', rfl, rfl⟩
  · rfl
  · have hmembers : ruleMembers entries = ruleMembers entries' := by
      unfold ruleMembers
      congr 1
      funext name
      rcases h.lookup name with ⟨hv, hw⟩ | ⟨a, b, hv, hw, hab⟩
      · simp only [Value.entries] at hv hw
        rw [hv, hw]
      · simp only [Value.entries] at hv hw
        have hbare : a.bare = b.bare := Option.some.inj (hab [])
        rw [hv, hw, Option.map_some, Option.map_some, hbare]
    simp only [rule?, hmembers]

theorem ruleSet?_congr {v w : Value} (h : v.Alike w) : ruleSet? v = ruleSet? w := by
  have hrule : ∀ {a b : Value}, a.Alike b → maybe? rule? a = maybe? rule? b :=
    fun hab => hab.maybe? rule?_congr
  unfold ruleSet?
  rw [h.may hrule, h.may hrule, h.may (Value.Alike.congr_bare (list?_bare partitionRule?)),
    h.may hrule, h.may hrule]

theorem settings?_congr {v w : Value} (h : v.Alike w) : settings? v = settings? w := by
  have hword : ∀ {a b : Value}, a.Alike b → a.word? = b.word? := Value.Alike.congr_bare word?_bare
  have hspan : ∀ {a b : Value}, a.Alike b → maybe? word? a = maybe? word? b :=
    fun hab => hab.maybe? hword
  unfold settings?
  rw [h.may hword, h.may hspan, h.may hspan,
    h.may (Value.Alike.congr_bare (list?_bare partitionChoice?)),
    h.may fun hab => hab.maybe? ruleSet?_congr, h.may hword]

/-- **Configurations in which the same stands at every path give the same settings.** -/
theorem agentSettings?_congr {v w : Value} (h : v.Alike w) (nodeId : String) :
    agentSettings? nodeId v = agentSettings? nodeId w := by
  have htext : ∀ {a b : Value}, a.Alike b → a.text? = b.text? := Value.Alike.congr_bare text?_bare
  unfold agentSettings?
  rw [h.may htext, h.may htext, h.may (Value.Alike.congr_bare shortWord?_bare), h.may htext,
    h.may settings?_congr]

end QuotaWatch.Config
