/-
# Readings and alerts as texts

Every reading, snapshot, alert and description of a node is read back from its text, and what
was read from a text is read again from its own (`roundTrips_reports`). Each document is put
together of the documents of its parts: the names of a reading are none of the names around
it, and the tag of an alert is none of its other names, so nothing is hidden by being spread
out. What times and what paths a text can name are the only restrictions
(`Timestamp.IsCivil`, `OsPath.IsText`).

Key definitions: `Alert.IsCivil`, `AlertRecord.IsCivil`, `Reading.IsCivil`,
`InstanceReading.IsCivil`, `Snapshot.IsCivil`, `OsPath.IsText`, `OsPath.nameless`,
`Capacity.IsText`.
Key theorems: `AlertRecord.documents`, `Snapshot.documents`, `Capacity.documents`,
`roundTrips_reports`.
-/
import QuotaWatch.Document.Alert
import QuotaWatch.Document.Node
import QuotaWatch.Proofs.Json.Decoded
import QuotaWatch.Proofs.Time.Text

namespace QuotaWatch

open Json
open Time (Timestamp)

variable {height : ℕ}

/-! ### Times -/

/-- The text of a time is read as the time that it names. -/
theorem Time.Timestamp.documents (t : Timestamp) :
    Documents Timestamp.decode height t.toJson (Timestamp.ofText? t.toText) :=
  documents_named _ _

theorem Time.Timestamp.documents_of_isCivil {t : Timestamp} (h : t.IsCivil) :
    Documents Timestamp.decode height t.toJson (some t) :=
  Timestamp.ofText?_toText h ▸ t.documents

theorem Time.Timestamp.isCivil_of_decode {p : Place} {j : Json} {t : Timestamp}
    (h : Timestamp.decode p j = .ok t) : t.IsCivil := by
  obtain ⟨s, hs⟩ := named_eq_ok h
  exact Timestamp.isCivil_of_ofText? hs

/-! ### Readings -/

theorem Ident.documents (i : Ident) : Documents Ident.decode (height + 1) i.toJson (some i) :=
  Documents.record
    (.cons (documents_ofString _) (.cons (documents_ofString _) (.cons (documents_ofWord _) .nil)))
    (by decide) _

theorem PartitionUsage.documents (p : PartitionUsage) :
    Documents PartitionUsage.decode (height + 1) p.toJson (some p) :=
  Documents.record (.cons (documents_ofString _) (.cons (documents_ofWord _) .nil)) (by decide) _

namespace Reading

/-- A reading at a time that has a text. -/
def IsCivil (r : Reading) : Prop := r.timestamp.IsCivil

theorem documents {r : Reading} (h : r.IsCivil) :
    Documents decode (height + 3) r.toJson (some r) :=
  Documents.record
    (.cons (documents_ofWord _) (.cons (documents_ofWord _)
      (.cons (.list_some fun p _ => p.documents) (.cons (documents_ofWord _)
        (.cons (documents_ofWord _) (.cons (Timestamp.documents_of_isCivil h) .nil))))))
    (by decide) _

theorem isCivil_of_decode {p : Place} {j : Json} {r : Reading} (h : decode p j = .ok r) :
    r.IsCivil := by
  obtain ⟨row, hrow, rfl⟩ := record_eq_ok h
  obtain ⟨_, _, htime⟩ := hrow.of_need.2.of_need.2.of_need.2.of_need.2.of_need.2.of_need.1
  exact Timestamp.isCivil_of_decode htime

end Reading

namespace InstanceReading

def IsCivil (i : InstanceReading) : Prop := i.reading.IsCivil

theorem documents {i : InstanceReading} (h : i.IsCivil) :
    Documents decode (height + 3) i.toJson (some i) :=
  Documents.splitting (.cons i.ident.documents .nil) (by decide) (Reading.documents h)
    (by simp [IsApart, Fields.names, Reading.members, member]) _

theorem isCivil_of_decode {p : Place} {j : Json} {i : InstanceReading} (h : decode p j = .ok i) :
    i.IsCivil := by
  obtain ⟨_, _, _, _, _, hreading, rfl⟩ := splitting_eq_ok h
  exact Reading.isCivil_of_decode hreading

end InstanceReading

namespace Snapshot

/-- A snapshot of which all times have a text. -/
structure IsCivil (s : Snapshot) : Prop where
  timestamp : s.timestamp.IsCivil
  node : s.node.IsCivil
  instances : ∀ i ∈ s.instances, i.IsCivil

theorem documents {s : Snapshot} (h : s.IsCivil) :
    Documents decode (height + 5) s.toJson (some s) :=
  Documents.record
    (.cons (documents_ofString _) (.cons (Reading.documents h.node)
      (.cons (.list_some fun i hi => InstanceReading.documents (h.instances i hi))
        (.cons (Timestamp.documents_of_isCivil h.timestamp) .nil))))
    (by decide) _

theorem isCivil_of_decode {p : Place} {j : Json} {s : Snapshot} (h : decode p j = .ok s) :
    s.IsCivil := by
  obtain ⟨row, hrow, rfl⟩ := record_eq_ok h
  obtain ⟨⟨_, _, hnode⟩, hrow⟩ := hrow.of_need.2.of_need
  obtain ⟨⟨_, _, hinstances⟩, hrow⟩ := hrow.of_need
  obtain ⟨_, _, htime⟩ := hrow.of_need.1
  refine ⟨Timestamp.isCivil_of_decode htime, Reading.isCivil_of_decode hnode, fun i hi => ?_⟩
  obtain ⟨_, _, hi⟩ := list_eq_ok hinstances i hi
  exact InstanceReading.isCivil_of_decode hi

end Snapshot

/-- A snapshot can be written, whatever its times are. -/
theorem Snapshot.isText_toJson (s : Snapshot) : s.toJson.isText = true := by
  have hpartitions : ∀ ps : List PartitionUsage,
      (ofList PartitionUsage.toJson ps).isText = true := fun ps => by
    rw [ofList, Json.isText, allText_iff, List.forall_mem_map]
    exact fun p _ => isText_of_isSound (p.documents : Documents _ (0 + 1) _ _).sound
  have hmembers : ∀ r : Reading, membersText r.members = true := fun r => by
    simp [Reading.members, membersText, Json.isText, member, hpartitions, ofWord, ofString,
      Timestamp.toJson]
  have hinstance : ∀ i : InstanceReading, i.toJson.isText = true := fun i => by
    have hident : i.ident.toJson.isText = true :=
      isText_of_isSound (i.ident.documents : Documents _ (0 + 1) _ _).sound
    simp [InstanceReading.toJson, membersText, Json.isText, member, hident, hmembers]
  have hinstances : (ofList InstanceReading.toJson s.instances).isText = true := by
    rw [ofList, Json.isText, allText_iff, List.forall_mem_map]
    exact fun i _ => hinstance i
  simp [toJson, Json.isText, membersText, member, ofString, Reading.toJson, hmembers,
    Timestamp.toJson, hinstances]

/-! ### Alerts -/

theorem Status.documents (s : Status) :
    Documents Status.decode height (ofString s.word) (some s) := by
  have hword : Status.ofWord? s.word = some s := by cases s <;> decide
  exact ⟨.text s.word, fun p hp => hword ▸ (documents_named Status.ofWord? s.word).decodes p hp⟩

namespace Alert

/-- An alert at a time that has a text. -/
def IsCivil (a : Alert) : Prop := a.timestamp.IsCivil

/-- An alert is read at the time that the text of its time names. -/
theorem documents (a : Alert) : Documents decode (height + 1) a.toJson
    ((Timestamp.ofText? a.timestamp.toText).map fun t => { a with timestamp := t }) := by
  have htime : Documents Timestamp.decode height a.timestamp.toJson _ := a.timestamp.documents
  generalize Timestamp.ofText? a.timestamp.toText = t? at htime ⊢
  cases t? <;>
    exact Documents.record
      (.given htime (.cons (documents_ofString _) (.cons (documents_ofWord _)
        (.cons (Status.documents _) .nil))))
      (by decide) _

theorem documents_of_isCivil {a : Alert} (h : a.IsCivil) :
    Documents decode (height + 1) a.toJson (some a) := by
  have hdocuments : Documents decode (height + 1) a.toJson _ := a.documents
  rwa [Timestamp.ofText?_toText h] at hdocuments

theorem isCivil_of_decode {p : Place} {j : Json} {a : Alert} (h : decode p j = .ok a) :
    a.IsCivil := by
  obtain ⟨row, hrow, rfl⟩ := record_eq_ok h
  obtain ⟨_, _, htime⟩ := hrow.of_need.1
  exact Timestamp.isCivil_of_decode htime

end Alert

namespace AlertRecord

def IsCivil (r : AlertRecord) : Prop := r.alert.IsCivil

/-- The text of an alert of the node is read as one, whatever its time. -/
theorem documents_system (nodeId : String) (a : Alert) :
    Documents decode (height + 2) (AlertRecord.system nodeId a).toJson
      ((Timestamp.ofText? a.timestamp.toText).map fun t =>
        .system nodeId { a with timestamp := t }) := by
  have halert : Documents Alert.decode (height + 2) a.toJson _ := a.documents
  refine Documents.tagged (documents_choice (by decide) (by decide) : Documents _ _ _ (some 0)) ?_
    (by simp [IsApart, Alert.members, member])
  generalize Timestamp.ofText? a.timestamp.toText = t? at halert ⊢
  cases t? <;>
    exact Documents.splitting (.cons (documents_ofString _) .nil) (by decide) halert
      (by simp [IsApart, Fields.names, Alert.members, member]) _

/-- The text of an alert of an instance is read as one, whatever its time. -/
theorem documents_workload (ident : Ident) (a : Alert) :
    Documents decode (height + 2) (AlertRecord.workload ident a).toJson
      ((Timestamp.ofText? a.timestamp.toText).map fun t =>
        .workload ident { a with timestamp := t }) := by
  have halert : Documents Alert.decode (height + 2) a.toJson _ := a.documents
  refine Documents.tagged (documents_choice (by decide) (by decide) : Documents _ _ _ (some 1)) ?_
    (by simp [IsApart, Alert.members, member])
  generalize Timestamp.ofText? a.timestamp.toText = t? at halert ⊢
  cases t? <;>
    exact Documents.splitting (.cons ident.documents .nil) (by decide) halert
      (by simp [IsApart, Fields.names, Alert.members, member]) _

theorem documents {r : AlertRecord} (h : r.IsCivil) :
    Documents decode (height + 2) r.toJson (some r) := by
  cases r with
  | system nodeId a =>
    have htime : Timestamp.ofText? a.timestamp.toText = some a.timestamp :=
      Timestamp.ofText?_toText h
    have hdocuments : Documents decode (height + 2) _ _ := documents_system nodeId a
    rwa [htime] at hdocuments
  | workload ident a =>
    have htime : Timestamp.ofText? a.timestamp.toText = some a.timestamp :=
      Timestamp.ofText?_toText h
    have hdocuments : Documents decode (height + 2) _ _ := documents_workload ident a
    rwa [htime] at hdocuments

theorem isCivil_of_decode {p : Place} {j : Json} {r : AlertRecord} (h : decode p j = .ok r) :
    r.IsCivil := by
  obtain ⟨kind, _, _, h⟩ := tagged_eq_ok h
  cases kind <;> obtain ⟨_, _, _, _, _, halert, rfl⟩ := splitting_eq_ok h <;>
    exact Alert.isCivil_of_decode halert

end AlertRecord

/-! ### Paths -/

namespace OsPath

/-- A path that a text names. -/
def IsText (p : OsPath) : Prop := p.text?.isSome = true

instance (p : OsPath) : Decidable p.IsText := inferInstanceAs (Decidable (_ = true))

/-- A path of one byte, which no text names. -/
def nameless : OsPath := ⟨⟨#[0xff]⟩⟩

theorem isText_ofText (s : String) : (ofText s).IsText := by rw [IsText, text?_ofText]; rfl

@[simp] theorem isText_toJson {p : OsPath} : p.toJson.isText = true ↔ p.IsText := Iff.rfl

theorem documents {p : OsPath} (h : p.IsText) : Documents decode height p.toJson (some p) := by
  obtain ⟨s, hs⟩ := Option.isSome_iff_exists.mp h
  have hstring : Documents string height (ofString s) (some s) := documents_ofString s
  rw [toJson, hs]
  refine ⟨hstring.sound, fun place hplace => ?_⟩
  show ((string place (ofString s).asRead).map ofText).toOption = some p
  rw [toOption_map, hstring.decodes place hplace, Option.map_some, ofText_of_text? hs]

/-- What was read is a text. -/
theorem isText_of_decode {place : Place} {j : Json} {p : OsPath} (h : decode place j = .ok p) :
    p.IsText := by
  unfold decode at h
  cases hs : string place j with
  | ok s =>
    rw [hs] at h
    cases h
    exact isText_ofText s
  | error r =>
    rw [hs] at h
    cases h

end OsPath

/-! ### Nodes -/

namespace PartitionInfo

/-- A partition whose path is a text. -/
def IsText (p : PartitionInfo) : Prop := p.path.IsText

theorem documents {p : PartitionInfo} (h : p.IsText) :
    Documents decode (height + 2) p.toJson (some p) :=
  Documents.record
    (.cons (documents_ofString _) (.cons (.list_some fun s _ => documents_ofString s)
      (.cons (OsPath.documents h) (.cons (documents_ofWord _) .nil))))
    (by decide) _

theorem isText_of_decode {place : Place} {j : Json} {p : PartitionInfo}
    (h : decode place j = .ok p) : p.IsText := by
  obtain ⟨row, hrow, rfl⟩ := record_eq_ok h
  obtain ⟨_, _, hpath⟩ := hrow.of_need.2.of_may.2.of_need.1
  exact OsPath.isText_of_decode hpath

/-- A partition can be written just if its path is a text. -/
theorem isText_toJson {p : PartitionInfo} : p.toJson.isText = true ↔ p.IsText := by
  have hwords := isText_strings p.types
  simp [toJson, Json.isText, membersText, member, hwords, ofString, ofWord, IsText]

end PartitionInfo

/-- Partitions can be written just if all of their paths are texts. -/
theorem isText_partitions {partitions : List PartitionInfo} :
    (ofList PartitionInfo.toJson partitions).isText = true ↔
      ∀ p ∈ partitions, p.IsText := by
  rw [ofList, Json.isText, allText_iff, List.forall_mem_map]
  exact forall₂_congr fun p _ => PartitionInfo.isText_toJson

theorem isText_of_list_decode {place : Place} {j : Json} {partitions : List PartitionInfo}
    (h : list PartitionInfo.decode place j = .ok partitions) : ∀ p ∈ partitions, p.IsText := by
  intro p hp
  obtain ⟨_, _, hp⟩ := list_eq_ok h p hp
  exact PartitionInfo.isText_of_decode hp

namespace NodeInfo

/-- A node whose partitions have texts for paths. -/
def IsText (n : NodeInfo) : Prop := ∀ p ∈ n.partitions, p.IsText

theorem documents {n : NodeInfo} (h : n.IsText) :
    Documents decode (height + 4) n.toJson (some n) :=
  Documents.record
    (.cons (documents_ofString _) (.cons (documents_ofString _) (.cons (documents_ofWord _)
      (.cons (documents_ofWord _) (.cons (.list_some fun p hp => PartitionInfo.documents (h p hp))
        .nil)))))
    (by decide) _

theorem isText_of_decode {place : Place} {j : Json} {n : NodeInfo} (h : decode place j = .ok n) :
    n.IsText := by
  obtain ⟨row, hrow, rfl⟩ := record_eq_ok h
  rcases hrow.of_need.2.of_may.2.of_may.2.of_may.2.of_may.1 with ⟨_, _, hpartitions⟩ | hnone
  · exact isText_of_list_decode hpartitions
  · intro p hp
    change p ∈ row.2.2.2.2.1 at hp
    rw [hnone] at hp
    cases hp

end NodeInfo

namespace Capacity

/-- Capacities whose partitions have texts for paths. -/
def IsText (c : Capacity) : Prop := ∀ p ∈ c.partitions, p.IsText

theorem documents {c : Capacity} (h : c.IsText) :
    Documents decode (height + 4) c.toJson (some c) :=
  Documents.record
    (.cons (documents_ofWord _) (.cons (documents_ofWord _)
      (.cons (.list_some fun p hp => PartitionInfo.documents (h p hp)) .nil)))
    (by decide) _

theorem isText_of_decode {place : Place} {j : Json} {c : Capacity} (h : decode place j = .ok c) :
    c.IsText := by
  obtain ⟨row, hrow, rfl⟩ := record_eq_ok h
  obtain ⟨_, _, hpartitions⟩ := hrow.of_need.2.of_need.2.of_need.1
  exact isText_of_list_decode hpartitions

/-- Capacities can be written just if the paths of all partitions are texts. -/
theorem isText_toJson {c : Capacity} : c.toJson.isText = true ↔ c.IsText := by
  simp [toJson, Json.isText, membersText, member, ofWord, IsText, isText_partitions]

end Capacity

/-! ### Round trips -/

/-- **Reports make the round trip**: every reading, snapshot, alert and description of a node
whose times and paths have a text is read back from its own text, no two of a kind have the
same text, and what was read from any text is read again from its own; and the text of an
alert of the node, whatever its time, is never read as one of an instance. -/
theorem roundTrips_reports :
    RoundTrips AlertRecord.toJson AlertRecord.decode AlertRecord.IsCivil ∧
    RoundTrips Alert.toJson Alert.decode Alert.IsCivil ∧
    RoundTrips Ident.toJson Ident.decode (fun _ => True) ∧
    RoundTrips Reading.toJson Reading.decode Reading.IsCivil ∧
    RoundTrips InstanceReading.toJson InstanceReading.decode InstanceReading.IsCivil ∧
    RoundTrips Snapshot.toJson Snapshot.decode Snapshot.IsCivil ∧
    RoundTrips PartitionInfo.toJson PartitionInfo.decode PartitionInfo.IsText ∧
    RoundTrips NodeInfo.toJson NodeInfo.decode NodeInfo.IsText ∧
    RoundTrips Capacity.toJson Capacity.decode Capacity.IsText ∧
    ∀ nodeId alert, ∃ text, (AlertRecord.system nodeId alert).toJson.toText? = some text ∧
      ∀ ident other, decodeText AlertRecord.decode text ≠ .ok (.workload ident other) := by
  have hroom : ∀ height ≤ 5, height ≤ maxDepth := fun height h => h.trans (by decide)
  refine ⟨.of_documents (hroom 2 (by decide)) (fun _ => AlertRecord.documents)
      fun _ _ _ => AlertRecord.isCivil_of_decode,
    .of_documents (hroom 1 (by decide)) (fun _ => Alert.documents_of_isCivil)
      fun _ _ _ => Alert.isCivil_of_decode,
    .of_documents (hroom 1 (by decide)) (fun i _ => i.documents) fun _ _ _ _ => trivial,
    .of_documents (hroom 3 (by decide)) (fun _ => Reading.documents)
      fun _ _ _ => Reading.isCivil_of_decode,
    .of_documents (hroom 3 (by decide)) (fun _ => InstanceReading.documents)
      fun _ _ _ => InstanceReading.isCivil_of_decode,
    .of_documents (hroom 5 (by decide)) (fun _ => Snapshot.documents)
      fun _ _ _ => Snapshot.isCivil_of_decode,
    .of_documents (hroom 2 (by decide)) (fun _ => PartitionInfo.documents)
      fun _ _ _ => PartitionInfo.isText_of_decode,
    .of_documents (hroom 4 (by decide)) (fun _ => NodeInfo.documents)
      fun _ _ _ => NodeInfo.isText_of_decode,
    .of_documents (hroom 4 (by decide)) (fun _ => Capacity.documents)
      fun _ _ _ => Capacity.isText_of_decode,
    fun nodeId a => ?_⟩
  have hdocument : Documents _ (0 + 2) _ _ := AlertRecord.documents_system nodeId a
  refine ⟨_, hdocument.toText?_eq, fun ident other h => ?_⟩
  have hsystem := hdocument.toOption_decodeText (hroom 2 (by decide))
  rw [h] at hsystem
  obtain ⟨_, -, hkind⟩ := Option.map_eq_some_iff.mp hsystem.symm
  cases hkind

end QuotaWatch
