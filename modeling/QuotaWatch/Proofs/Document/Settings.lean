/-
# Settings as texts

Settings, rule sets and the parameters of an instance are read back from their texts. A text
holds times in whole milliseconds, so it is read as the settings with their times in
milliseconds (`inMillis`), which are the same settings if they hold no finer time (`IsWhole`).
Paths are kept where they are texts; one that is none keeps its settings from being written
at all (`not_reads_of_nameless`).
A threshold that is not finite has no number in a text: there the rule is refused, and with it
all that holds the rule, and no other rule is read in its place (`Rule.documents`). For finite
thresholds it is assumed, float by float, that the text of the float alone is read as the float.

Key definitions: `ReadsFloats`, `Rule.isFinite`, `Rule.inMillis`, `RuleSet.rules`,
`Settings.inMillis`, `ReadsBack`.
Key theorems: `Rule.documents`, `RuleSet.documents`, `Settings.documents`,
`readsBack_settings`.
-/
import QuotaWatch.Document.Settings
import QuotaWatch.Proofs.Json.Floats
import QuotaWatch.Proofs.Document.Readings

namespace QuotaWatch

open Json
open Time (Span Millis)

variable {height : ℕ}

/-- The text of each float, where it is finite, is decoded as the float. -/
def ReadsFloats (floats : List Float) : Prop :=
  ∀ x ∈ floats, x.isFinite = true → decodeText float (ofFloat x).toText = .ok x

/-- A length of time in whole milliseconds. -/
def Time.Span.inMillis (s : Span) : Span := .ofMillis s.millis

/-! ### Rules -/

namespace Bounds

def inMillis (b : Bounds) : Bounds := { b with timeout := b.timeout.inMillis }

def isFinite (b : Bounds) : Bool := b.min.isFinite && b.max.isFinite

theorem documents {b : Bounds} (h : ReadsFloats [b.min, b.max]) :
    Documents decode (height + 1) (.object b.members)
      (if b.isFinite then some b.inMillis else none) := by
  have hmin := h b.min (by simp)
  have hmax := h b.max (by simp)
  have hdocuments : Documents decode (height + 1) (.object b.members)
      (if b.min.isFinite && (b.max.isFinite && true) then some b.inMillis else none) :=
    Documents.record_if
      (.cons_if (documents_ofWord _) (.given_if (documents_ofFloat hmin)
        (.given_if (documents_ofFloat hmax) (.if_true .nil))))
      (by decide) _
  rwa [Bool.and_true] at hdocuments

end Bounds

namespace Rule

def thresholds (r : Rule) : List Float := [r.bounds.min, r.bounds.max]

def isFinite (r : Rule) : Bool := r.bounds.isFinite

/-- The rule with its timeout in whole milliseconds. -/
def inMillis : Rule → Rule
  | .absolute b => .absolute b.inMillis
  | .relative b => .relative b.inMillis

/-- **A rule is read from its text** if its thresholds are finite, and else no rule is. -/
theorem documents {r : Rule} (h : ReadsFloats r.thresholds) :
    Documents decode (height + 1) r.toJson (if r.isFinite then some r.inMillis else none) := by
  have hapart : IsApart ["kind"] r.bounds.members := by simp [IsApart, Bounds.members, member]
  cases r with
  | absolute b =>
    have hkind : Documents (choice ["absolute", "relative"]) height (ofString "absolute") (some 0) :=
      documents_choice (by decide) (by decide)
    exact Documents.tagged hkind ((Bounds.documents h).map_if Rule.absolute) hapart
  | relative b =>
    have hkind : Documents (choice ["absolute", "relative"]) height (ofString "relative") (some 1) :=
      documents_choice (by decide) (by decide)
    exact Documents.tagged hkind ((Bounds.documents h).map_if Rule.relative) hapart

/-- A rule that may be absent. -/
theorem documents_optional {r : Rule} (h : ReadsFloats r.thresholds) :
    Documents (optional decode) (height + 1) r.toJson
      (if r.isFinite then some (some r.inMillis) else none) :=
  (documents h).optional_if (by rw [toJson, asRead_object]; exact fun h => by cases h)

end Rule

namespace PartitionRule

def inMillis (p : PartitionRule) : PartitionRule := { p with rule := p.rule.inMillis }

theorem documents {p : PartitionRule} (h : ReadsFloats p.rule.thresholds) :
    Documents decode (height + 1) p.toJson
      (if p.rule.isFinite then some p.inMillis else none) :=
  Documents.splitting_if (.cons (documents_ofString _) .nil) (by decide) (Rule.documents h)
    (by simp [IsApart, Fields.names, Rule.members, Bounds.members, member]) _

end PartitionRule

namespace RuleSet

/-- The rules of a set, those of its partitions among them. -/
def rules (r : RuleSet) : List Rule :=
  r.cpu.toList ++ (r.ram.toList ++ (r.partitions.map (·.rule) ++
    (r.inTraffic.toList ++ r.outTraffic.toList)))

def thresholds (r : RuleSet) : List Float := r.rules.flatMap Rule.thresholds

def isFinite (r : RuleSet) : Bool := r.rules.all Rule.isFinite

/-- The rules with their timeouts in whole milliseconds. -/
def inMillis (r : RuleSet) : RuleSet where
  cpu := r.cpu.map Rule.inMillis
  ram := r.ram.map Rule.inMillis
  partitions := r.partitions.map PartitionRule.inMillis
  inTraffic := r.inTraffic.map Rule.inMillis
  outTraffic := r.outTraffic.map Rule.inMillis

theorem isFinite_eq (r : RuleSet) : r.isFinite =
    (r.cpu.all Rule.isFinite && (r.ram.all Rule.isFinite &&
      (r.partitions.all (fun p => p.rule.isFinite) && (r.inTraffic.all Rule.isFinite &&
        (r.outTraffic.all Rule.isFinite && true))))) := by
  have hoption : ∀ o : Option Rule, o.toList.all Rule.isFinite = o.all Rule.isFinite := by
    intro o
    cases o <;> simp
  simp only [isFinite, rules, List.all_append, hoption, List.all_map, Bool.and_true]
  rfl

/-- The partition rules are left out where there are none. -/
theorem members_partitions {αs : List Type} {fields : Fields αs} {row : Json.Row αs} {ok : Bool}
    {members : List (Option String × Json)} {partitions : List PartitionRule}
    (h : ∀ p ∈ partitions, ReadsFloats p.rule.thresholds)
    (hrest : Members (height + 2) fields (if ok then some row else none) members) :
    Members (height + 2) (may "partitions" (list PartitionRule.decode) [] fields)
      (if partitions.all (fun p => p.rule.isFinite) && ok then
        some (Json.Row.cons (partitions.map PartitionRule.inMillis) row) else none)
      ((if partitions.isEmpty then []
        else [member "partitions" (ofList PartitionRule.toJson partitions)]) ++ members) := by
  cases partitions with
  | nil => exact Members.left_if hrest
  | cons p ps =>
    exact Members.given_if
      (Documents.list_if fun p hp => PartitionRule.documents (h p hp)) hrest

theorem documents {r : RuleSet} (h : ReadsFloats r.thresholds) :
    Documents decode (height + 3) r.toJson (if r.isFinite then some r.inMillis else none) := by
  have hrule : ∀ rule ∈ r.rules, ReadsFloats rule.thresholds := fun rule hrule x hx =>
    h x (List.mem_flatMap.mpr ⟨rule, hrule, hx⟩)
  simp only [rules, List.forall_mem_append, Option.mem_toList, List.forall_mem_map] at hrule
  obtain ⟨hcpu, hram, hpartitions, hin, hout⟩ := hrule
  have hjson : r.toJson = .object (member? "cpu" Rule.toJson r.cpu ++
      (member? "ram" Rule.toJson r.ram ++
        ((if r.partitions.isEmpty then []
          else [member "partitions" (ofList PartitionRule.toJson r.partitions)]) ++
        (member? "in_traffic" Rule.toJson r.inTraffic ++
          (member? "out_traffic" Rule.toJson r.outTraffic ++ []))))) := by
    rw [toJson, List.append_nil, List.append_assoc, List.append_assoc, List.append_assoc]
  rw [isFinite_eq, hjson]
  exact Documents.record_if
    (Members.optional_if (fun rule hr => Rule.documents_optional (hcpu rule hr))
      (Members.optional_if (fun rule hr => Rule.documents_optional (hram rule hr))
        (members_partitions hpartitions
          (Members.optional_if (fun rule hr => Rule.documents_optional (hin rule hr))
            (Members.optional_if (fun rule hr => Rule.documents_optional (hout rule hr))
              (.if_true .nil))))))
    (by decide) _

/-- Rules that may be absent. -/
theorem documents_optional {r : RuleSet} (h : ReadsFloats r.thresholds) :
    Documents (optional decode) (height + 3) r.toJson
      (if r.isFinite then some (some r.inMillis) else none) :=
  (documents h).optional_if (by rw [toJson, asRead_object]; exact fun h => by cases h)

end RuleSet

namespace NodeSettings

def thresholds (n : NodeSettings) : List Float := n.rules.toList.flatMap RuleSet.thresholds

def isFinite (n : NodeSettings) : Bool := n.rules.all RuleSet.isFinite

def inMillis (n : NodeSettings) : NodeSettings := { n with rules := n.rules.map RuleSet.inMillis }

theorem documents {n : NodeSettings} (h : ReadsFloats n.thresholds) :
    Documents decode (height + 4) n.toJson (if n.isFinite then some n.inMillis else none) := by
  have hrules : ∀ r, n.rules = some r → ReadsFloats r.thresholds := fun r hr x hx =>
    h x (by simpa [thresholds, hr] using hx)
  have hjson : n.toJson = .object (member "version" (ofString n.version) ::
      (member? "alert_rules" RuleSet.toJson n.rules ++ [])) := by
    rw [toJson, List.append_nil]
  have hdocuments : Documents decode (height + 4) n.toJson
      (if n.rules.all RuleSet.isFinite && true then some n.inMillis else none) := by
    rw [hjson]
    exact Documents.record_if
      (.cons_if (documents_ofString _)
        (Members.optional_if (fun r hr => RuleSet.documents_optional (hrules r hr))
          (.if_true .nil)))
      (by decide) _
  rwa [Bool.and_true] at hdocuments

end NodeSettings

/-! ### Instances -/

theorem WatchedPartition.documents {p : WatchedPartition} (h : p.path.IsText) :
    Documents WatchedPartition.decode (height + 1) p.toJson (some p) :=
  Documents.record (.cons (documents_ofString _) (.cons (OsPath.documents h) .nil)) (by decide) _

namespace InstanceParams

def thresholds (i : InstanceParams) : List Float := i.rules.toList.flatMap RuleSet.thresholds

def isFinite (i : InstanceParams) : Bool := i.rules.all RuleSet.isFinite

def inMillis (i : InstanceParams) : InstanceParams :=
  { i with rules := i.rules.map RuleSet.inMillis }

/-- The paths of the partitions. -/
def paths (i : InstanceParams) : List OsPath := i.partitions.map (·.path)

theorem documents {i : InstanceParams} (hpaths : ∀ p ∈ i.paths, p.IsText)
    (h : ReadsFloats i.thresholds) :
    Documents decode (height + 4) i.toJson (if i.isFinite then some i.inMillis else none) := by
  have hrules : ∀ r, i.rules = some r → ReadsFloats r.thresholds := fun r hr x hx =>
    h x (by simpa [thresholds, hr] using hx)
  have hdocuments : Documents decode (height + 4) i.toJson
      (if i.rules.all RuleSet.isFinite && true then some i.inMillis else none) :=
    Documents.record_if
      (.cons_if i.ident.documents (.cons_if (documents_ofWord32 _) (.cons_if (documents_ofWord32 _)
        (Members.optional_if (fun r hr => RuleSet.documents_optional (hrules r hr))
          (.if_true (.cons (.list_some fun p hp => WatchedPartition.documents
            (hpaths p.path (List.mem_map_of_mem hp))) .nil))))))
      (by decide) _
  rwa [Bool.and_true] at hdocuments

end InstanceParams

/-! ### Monitors -/

theorem PartitionChoice.documents {p : PartitionChoice} (h : p.path.IsText) :
    Documents PartitionChoice.decode (height + 2) p.toJson (some p) :=
  Documents.record
    (.cons (documents_ofString _) (.cons (.list_some fun s _ => documents_ofString s)
      (.cons (OsPath.documents h) .nil)))
    (by decide) _

theorem documents_optionalWord (n : UInt64) :
    Documents (optional word) height (ofWord n) (some (some n)) :=
  (documents_ofWord n).optional (by rw [asRead_ofWord]; exact fun h => by cases h)

namespace Settings

def thresholds (s : Settings) : List Float := s.rules.toList.flatMap RuleSet.thresholds

def isFinite (s : Settings) : Bool := s.rules.all RuleSet.isFinite

/-- The settings with all times in whole milliseconds. -/
def inMillis (s : Settings) : Settings where
  pollPeriod := s.pollPeriod.inMillis
  sendPeriod := s.sendPeriod.map Span.inMillis
  window := s.window.map Span.inMillis
  partitions := s.partitions
  rules := s.rules.map RuleSet.inMillis
  buffer := s.buffer

/-- The paths of the partitions. -/
def paths (s : Settings) : List OsPath := s.partitions.map (·.path)

theorem documents {s : Settings} (hpaths : ∀ p ∈ s.paths, p.IsText)
    (h : ReadsFloats s.thresholds) :
    Documents decode (height + 4) s.toJson (if s.isFinite then some s.inMillis else none) := by
  have hrules : ∀ r, s.rules = some r → ReadsFloats r.thresholds := fun r hr x hx =>
    h x (by simpa [thresholds, hr] using hx)
  have hjson : s.toJson = .object (member "poll_period_ms" (ofWord s.pollPeriod.millis) ::
      (member? "send_period_ms" ofWord (s.sendPeriod.map (·.millis)) ++
        (member? "average_window_ms" ofWord (s.window.map (·.millis)) ++
          (member "partitions" (ofList PartitionChoice.toJson s.partitions) ::
            (member? "alert_rules" RuleSet.toJson s.rules ++
              [member "monitoring_buffer" (ofWord s.buffer)]))))) := by
    rw [toJson, List.append_assoc]
  have hvalue : s.inMillis = ⟨.ofMillis s.pollPeriod.millis,
      (s.sendPeriod.map (·.millis)).map .ofMillis, (s.window.map (·.millis)).map .ofMillis,
      s.partitions, s.rules.map RuleSet.inMillis, s.buffer⟩ := by
    rw [inMillis, Option.map_map, Option.map_map]
    rfl
  have hdocuments : Documents decode (height + 4) s.toJson
      (if s.rules.all RuleSet.isFinite && true then some s.inMillis else none) := by
    rw [hjson, hvalue]
    exact Documents.record_if
      (.cons_if (documents_ofWord _)
        (.optional_some (fun n _ => documents_optionalWord n)
          (.optional_some (fun n _ => documents_optionalWord n)
            (.cons_if (.list_some fun p hp => PartitionChoice.documents
                (hpaths p.path (List.mem_map_of_mem hp)))
              (Members.optional_if (fun r hr => RuleSet.documents_optional (hrules r hr))
                (.if_true (.cons (documents_ofWord _) .nil)))))))
      (by decide) _
  rwa [Bool.and_true] at hdocuments

end Settings

/-! ### Round trips -/

/-- A length of time of whole milliseconds, as many as a word counts. -/
def Time.Span.IsWhole (s : Span) : Prop := ∃ m : Millis, s = .ofMillis m

theorem Time.Span.inMillis_eq {s : Span} (h : s.IsWhole) : s.inMillis = s := by
  obtain ⟨m, rfl⟩ := h
  rw [Span.inMillis, Span.millis_ofMillis]

theorem Option.map_inMillis {o : Option Span} (h : ∀ s ∈ o.toList, s.IsWhole) :
    o.map Span.inMillis = o := by
  cases o with
  | none => rfl
  | some s => rw [Option.map_some, Span.inMillis_eq (h s (by simp))]

theorem Rule.isFinite_eq (r : Rule) : r.isFinite = r.thresholds.all Float.isFinite := by
  simp [isFinite, Bounds.isFinite, thresholds]

theorem Rule.inMillis_eq {r : Rule} (h : r.bounds.timeout.IsWhole) : r.inMillis = r := by
  cases r with
  | absolute b =>
    exact congrArg (fun t => Rule.absolute { b with timeout := t }) (Span.inMillis_eq h)
  | relative b =>
    exact congrArg (fun t => Rule.relative { b with timeout := t }) (Span.inMillis_eq h)

theorem PartitionRule.inMillis_eq {p : PartitionRule} (h : p.rule.inMillis = p.rule) :
    p.inMillis = p := by
  rw [inMillis, h]

namespace RuleSet

/-- The timeouts of the rules of a set. -/
def timeouts (r : RuleSet) : List Span := r.rules.map (·.bounds.timeout)

theorem isFinite_eq_all (r : RuleSet) : r.isFinite = r.thresholds.all Float.isFinite := by
  rw [thresholds, List.all_flatMap, isFinite]
  congr 1
  exact funext Rule.isFinite_eq

theorem inMillis_eq {r : RuleSet} (h : ∀ s ∈ r.timeouts, s.IsWhole) : r.inMillis = r := by
  have hrule : ∀ rule ∈ r.rules, rule.inMillis = rule := fun rule hrule =>
    Rule.inMillis_eq (h _ (List.mem_map_of_mem hrule))
  simp only [rules, List.forall_mem_append, Option.mem_toList, List.forall_mem_map] at hrule
  obtain ⟨hcpu, hram, hpartitions, hin, hout⟩ := hrule
  have hoption : ∀ {o : Option Rule}, (∀ rule, o = some rule → rule.inMillis = rule) →
      o.map Rule.inMillis = o := by
    intro o ho
    cases o with
    | none => rfl
    | some rule => rw [Option.map_some, ho rule rfl]
  have hpartition : r.partitions.map PartitionRule.inMillis = r.partitions :=
    (List.map_congr_left fun p hp => PartitionRule.inMillis_eq (hpartitions p hp)).trans
      (List.map_id _)
  obtain ⟨cpu, ram, partitions, inTraffic, outTraffic⟩ := r
  rw [inMillis, hoption hcpu, hoption hram, hoption hin, hoption hout, hpartition]

end RuleSet

/-! The rules of other settings may be absent. -/

section Optional

variable (o : Option RuleSet)

theorem isFinite_optional :
    o.all RuleSet.isFinite = (o.toList.flatMap RuleSet.thresholds).all Float.isFinite := by
  cases o with
  | none => rfl
  | some r => simp [RuleSet.isFinite_eq_all]

theorem inMillis_optional (h : ∀ s ∈ o.toList.flatMap RuleSet.timeouts, s.IsWhole) :
    o.map RuleSet.inMillis = o := by
  cases o with
  | none => rfl
  | some r => rw [Option.map_some, RuleSet.inMillis_eq (by simpa using h)]

end Optional

/-- Values of a kind and their texts. A value has a text just if all of its paths are texts.
Where it has one, and the text of each finite threshold is read as the threshold, a value whose
times are whole milliseconds and whose thresholds are finite is read back from its text, and a
value with a threshold that is not finite is not read back at all. -/
structure ReadsBack {α : Type} (toJson : α → Json) (decode : Decoder α) (paths : α → List OsPath)
    (spans : α → List Span) (thresholds : α → List Float) : Prop where
  reads : ∀ a, (∀ p ∈ paths a, p.IsText) → (∀ s ∈ spans a, s.IsWhole) →
    (∀ x ∈ thresholds a, x.isFinite = true) → ReadsFloats (thresholds a) →
      ∃ text, (toJson a).toText? = some text ∧ decodeText decode text = .ok a
  refuses : ∀ a, (∀ p ∈ paths a, p.IsText) → (∃ x ∈ thresholds a, x.isFinite = false) →
    ReadsFloats (thresholds a) →
      ∃ text, (toJson a).toText? = some text ∧ ∃ r, decodeText decode text = .error r
  unwritten : ∀ a, (∃ p ∈ paths a, ¬ p.IsText) → (toJson a).toText? = none

theorem ReadsBack.of_documents {α : Type} {toJson : α → Json} {decode : Decoder α}
    {paths : α → List OsPath} {spans : α → List Span} {thresholds : α → List Float}
    {isFinite : α → Bool} {inMillis : α → α} (hheight : height ≤ maxDepth)
    (hdocuments : ∀ {a}, (∀ p ∈ paths a, p.IsText) → ReadsFloats (thresholds a) →
      Documents decode height (toJson a) (if isFinite a then some (inMillis a) else none))
    (hfinite : ∀ a, isFinite a = (thresholds a).all Float.isFinite)
    (hwhole : ∀ {a}, (∀ s ∈ spans a, s.IsWhole) → inMillis a = a)
    (hwritten : ∀ {a}, (toJson a).isText = true → ∀ p ∈ paths a, p.IsText) :
    ReadsBack toJson decode paths spans thresholds := by
  refine ⟨fun a hpaths hspans hall hreads => ?_, fun a hpaths ⟨x, hx, hinfinite⟩ hreads => ?_,
    fun a ⟨p, hp, hnot⟩ => if_neg fun htext => hnot (hwritten htext p hp)⟩
  · have hok : isFinite a = true := by rw [hfinite, List.all_eq_true]; exact hall
    have hdocument := hdocuments hpaths hreads
    rw [hok, if_pos rfl, hwhole hspans] at hdocument
    exact ⟨_, hdocument.toText?_eq, hdocument.decodeText_eq hheight⟩
  · have hno : isFinite a = false := by
      rw [hfinite, List.all_eq_false]
      exact ⟨x, hx, by simp [hinfinite]⟩
    have hdocument := hdocuments hpaths hreads
    rw [hno] at hdocument
    exact ⟨_, hdocument.toText?_eq, hdocument.decodeText_refused hheight⟩

/-- What can be written has only members that can be. -/
theorem Json.isText_of_mem {members : List (Option String × Json)}
    (h : (Json.object members).isText = true) {m : Option String × Json} (hm : m ∈ members) :
    m.2.isText = true := (membersText_iff.mp h m hm).2

theorem InstanceParams.isText_paths {i : InstanceParams} (h : i.toJson.isText = true) :
    ∀ p ∈ i.paths, p.IsText := by
  have hpartitions : (ofList WatchedPartition.toJson i.partitions).isText = true :=
    Json.isText_of_mem h (m := member "partitions" (ofList WatchedPartition.toJson i.partitions))
      (by simp)
  rw [ofList, Json.isText, allText_iff, List.forall_mem_map] at hpartitions
  rw [paths, List.forall_mem_map]
  exact fun p hp =>
    Json.isText_of_mem (hpartitions p hp) (m := member "path" p.path.toJson) (by simp)

theorem Settings.isText_paths {s : Settings} (h : s.toJson.isText = true) :
    ∀ p ∈ s.paths, p.IsText := by
  have hpartitions : (ofList PartitionChoice.toJson s.partitions).isText = true :=
    Json.isText_of_mem h (m := member "partitions" (ofList PartitionChoice.toJson s.partitions))
      (by simp)
  rw [ofList, Json.isText, allText_iff, List.forall_mem_map] at hpartitions
  rw [paths, List.forall_mem_map]
  exact fun p hp =>
    Json.isText_of_mem (hpartitions p hp) (m := member "path" p.path.toJson) (by simp)

/-- The times of settings. -/
def Settings.spans (s : Settings) : List Span :=
  s.pollPeriod :: (s.sendPeriod.toList ++ (s.window.toList ++
    s.rules.toList.flatMap RuleSet.timeouts))

theorem Settings.inMillis_eq {s : Settings} (h : ∀ t ∈ s.spans, t.IsWhole) : s.inMillis = s := by
  simp only [spans, List.forall_mem_cons, List.forall_mem_append] at h
  obtain ⟨hpoll, hsend, hwindow, hrules⟩ := h
  obtain ⟨poll, send, window, partitions, rules, buffer⟩ := s
  rw [inMillis, Span.inMillis_eq hpoll, Option.map_inMillis hsend, Option.map_inMillis hwindow,
    inMillis_optional _ hrules]

/-- **Settings make the round trip**: with times in whole milliseconds, finite thresholds and
paths that are texts a rule, a rule set, the settings of a node or of a monitor and the
parameters of an instance are read back from their texts as they were, so all that is decided
from them is decided alike; and a text with a threshold that is not finite is refused, not
read as another rule. What holds a path that is no text has no text itself. -/
theorem readsBack_settings :
    ReadsBack Rule.toJson Rule.decode (fun _ => []) (fun r => [r.bounds.timeout])
      Rule.thresholds ∧
    ReadsBack PartitionRule.toJson PartitionRule.decode (fun _ => [])
      (fun p => [p.rule.bounds.timeout]) (fun p => p.rule.thresholds) ∧
    ReadsBack RuleSet.toJson RuleSet.decode (fun _ => []) RuleSet.timeouts RuleSet.thresholds ∧
    ReadsBack NodeSettings.toJson NodeSettings.decode (fun _ => [])
      (fun n => n.rules.toList.flatMap RuleSet.timeouts) NodeSettings.thresholds ∧
    ReadsBack InstanceParams.toJson InstanceParams.decode InstanceParams.paths
      (fun i => i.rules.toList.flatMap RuleSet.timeouts) InstanceParams.thresholds ∧
    ReadsBack Settings.toJson Settings.decode Settings.paths Settings.spans
      Settings.thresholds := by
  have hroom : ∀ height ≤ 4, height ≤ maxDepth := fun height h => h.trans (by decide)
  refine ⟨.of_documents (hroom 1 (by decide)) (fun _ => Rule.documents) Rule.isFinite_eq
      (fun h => Rule.inMillis_eq (h _ List.mem_cons_self)) fun _ => nofun,
    .of_documents (hroom 1 (by decide)) (fun _ => PartitionRule.documents)
      (fun p => p.rule.isFinite_eq) (fun h => ?_) fun _ => nofun,
    .of_documents (hroom 3 (by decide)) (fun _ => RuleSet.documents) RuleSet.isFinite_eq_all
      RuleSet.inMillis_eq fun _ => nofun,
    .of_documents (hroom 4 (by decide)) (fun _ => NodeSettings.documents)
      (fun n => isFinite_optional n.rules) (fun {n} h => ?_) fun _ => nofun,
    .of_documents (hroom 4 (by decide)) InstanceParams.documents (fun i => isFinite_optional i.rules)
      (fun {i} h => ?_) InstanceParams.isText_paths,
    .of_documents (hroom 4 (by decide)) Settings.documents (fun s => isFinite_optional s.rules)
      Settings.inMillis_eq Settings.isText_paths⟩
  · exact PartitionRule.inMillis_eq (Rule.inMillis_eq (h _ List.mem_cons_self))
  · rw [NodeSettings.inMillis, inMillis_optional n.rules h]
  · rw [InstanceParams.inMillis, inMillis_optional i.rules h]

/-- Settings with rules of both kinds, one of them for a partition. -/
def mixedSettings : Settings where
  pollPeriod := .ofMillis 500
  sendPeriod := some (.ofMillis 1500)
  partitions := [⟨"data", ["storages"], "/srv/data"⟩]
  rules := some
    { cpu := some (.relative ⟨.ofMillis 3000, 80.5, 90.25⟩)
      partitions := [⟨"data", .absolute ⟨.ofMillis 0, 4096, 8192.5⟩⟩] }

theorem readsBack_mixedSettings :
    (∃ text, mixedSettings.toJson.toText? = some text ∧
        decodeText Settings.decode text = .ok mixedSettings) ∧
      ∃ text, (Rule.relative ⟨.zero, 80.5, 1 / 0⟩).toJson.toText? = some text ∧
        ∃ r, decodeText Rule.decode text = .error r := by
  refine ⟨readsBack_settings.2.2.2.2.2.reads _ ?_ ?_ ?_ ?_,
    readsBack_settings.1.refuses _ nofun ?_ ?_⟩
  · have hpaths : mixedSettings.paths = [.ofText "/srv/data"] := rfl
    rw [hpaths, List.forall_mem_singleton]
    exact OsPath.isText_ofText _
  · have hspans : mixedSettings.spans =
        [.ofMillis 500, .ofMillis 1500, .ofMillis 3000, .ofMillis 0] := rfl
    rw [hspans]
    simp only [List.forall_mem_cons, List.not_mem_nil]
    exact ⟨⟨_, rfl⟩, ⟨_, rfl⟩, ⟨_, rfl⟩, ⟨_, rfl⟩, fun _ h => h.elim⟩
  · have hthresholds : mixedSettings.thresholds = [80.5, 90.25, 4096, 8192.5] := rfl
    rw [hthresholds]
    simp only [List.forall_mem_cons, List.not_mem_nil]
    exact ⟨by decide, by decide, by decide, by decide, fun _ h => h.elim⟩
  · have hthresholds : mixedSettings.thresholds = [80.5, 90.25, 4096, 8192.5] := rfl
    rw [hthresholds]
    simp only [ReadsFloats, List.forall_mem_cons, List.not_mem_nil]
    exact ⟨fun _ => rfl, fun _ => rfl, fun _ => rfl, fun _ => rfl, fun _ h => h.elim⟩
  · exact ⟨1 / 0, by simp [Rule.thresholds, Rule.bounds], by decide⟩
  · simp only [ReadsFloats, Rule.thresholds, Rule.bounds, List.forall_mem_cons, List.not_mem_nil]
    exact ⟨fun _ => rfl, fun h => absurd h (by decide), fun _ h => h.elim⟩

/-- Settings with a path that is no text have no text to be read back from. -/
theorem not_reads_of_nameless :
    ¬ ∀ s : Settings, (∀ t ∈ s.spans, t.IsWhole) → (∀ x ∈ s.thresholds, x.isFinite = true) →
      ReadsFloats s.thresholds →
        ∃ text, s.toJson.toText? = some text ∧ decodeText Settings.decode text = .ok s := by
  intro h
  let s : Settings := { partitions := [⟨"data", [], .nameless⟩] }
  have hspans : s.spans = [.ofMillis 1000] := rfl
  have hwhole : ∀ t ∈ s.spans, t.IsWhole := by
    rw [hspans, List.forall_mem_singleton]
    exact ⟨1000, rfl⟩
  obtain ⟨text, htext, -⟩ := h s hwhole nofun nofun
  have hnone : s.toJson.toText? = none := by decide +kernel
  rw [hnone] at htext
  cases htext

end QuotaWatch
