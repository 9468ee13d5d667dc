/-
# Plain texts from the environment

What a variable holds is read as a truth value, a whole number or a float where it can be,
and a setting that is a plain text is written anew from what was read (`taken`). So a text
arrives as it is exactly if this is how its value is written (`taken_eq_iff`): a truth value
in small letters, a whole number without a plus sign and without zeros in front, a float in
its shortest form. A name that starts with a letter arrives as it is, unless it is one of
five words (`taken_of_isName`).

Key definitions: `IsWrittenWhole`, `taken`, `IsVerbatim`, `IsName`, `TextSetting`.
Key theorems: `ofInt_readWhole?_iff`, `taken_eq_iff`, `taken_of_isName`,
`text_of_variable`, `not_verbatim`.
-/
import Mathlib
import QuotaWatch.Proofs.Config.Fields
import QuotaWatch.Proofs.Decimal.Digits

namespace QuotaWatch

namespace Config

open Decimal Value

/-! ### Whole numbers -/

/-- A whole number as it is written: without a plus sign, and no zero in front of other digits
or behind a minus sign. -/
def IsWrittenWhole (cs : List Char) : Prop :=
  cs = ['0'] ∨ cs.head? ≠ some '+' ∧ cs.head? ≠ some '0' ∧
    (cs.head? = some '-' → cs.tail.head? ≠ some '0')

/-- **A whole number arrives as it is** exactly if this is how it is written. -/
theorem ofInt_readWhole?_iff {s : String} {n : Int} (h : readWhole? s = some n) :
    ofInt n = s.toList ↔ IsWrittenWhole s.toList := by
  unfold readWhole? at h
  simp only [Option.bind_eq_bind, Option.bind_eq_some_iff, Option.map_eq_some_iff,
    Option.filter_eq_some_iff, Option.some.injEq] at h
  obtain ⟨_, ⟨k, hk, rfl⟩, rfl, -⟩ := h
  obtain ⟨hne, hdigits, rfl⟩ := readNat?_eq_some hk
  have hwritten := ofNat_value_iff hne hdigits
  generalize hds : (splitSign s.toList).2 = ds at *
  have hdigit : ∀ c, ds.head? = some c → c.isDigit = true := fun c hc =>
    hdigits c (List.mem_of_head? hc)
  rcases splitSign_cases s.toList with ⟨hs, hsign⟩ | ⟨hs, hsign⟩ | ⟨hminus, hplus, hs⟩
  · -- behind a minus sign
    rw [hsign, if_pos rfl, hs, hds]
    by_cases hzero : value ds = 0
    · have hhead : ds.head? = some '0' := by
        by_contra hhead
        have hself := hwritten.mpr (Or.inr hhead)
        rw [hzero] at hself
        exact hhead (by rw [← hself]; decide)
      have hself : ofInt (-Int.ofNat (value ds)) = ['0'] := by rw [hzero]; decide
      rw [hself]
      constructor
      · intro h
        simp at h
      · rintro (h | ⟨-, -, hrest⟩)
        · simp at h
        · exact absurd hhead (hrest rfl)
    · have hneg : ofInt (-Int.ofNat (value ds)) = '-' :: ofNat (value ds) := by
        obtain ⟨k, hk⟩ := Nat.exists_eq_succ_of_ne_zero hzero
        rw [hk]
        rfl
      rw [hneg]
      simp only [List.cons.injEq, true_and, hwritten]
      constructor
      · rintro (rfl | hhead)
        · exact absurd (by decide) hzero
        · exact Or.inr ⟨by simp, by simp, fun _ => hhead⟩
      · rintro (hself | ⟨-, -, hhead⟩)
        · simp at hself
        · exact Or.inr (hhead rfl)
  · -- behind a plus sign
    rw [hsign, if_neg Bool.false_ne_true, hs, hds]
    constructor
    · intro hself
      have hplus : '+' ∈ ofNat (value ds) := by
        have : ofNat (value ds) = '+' :: ds := hself
        rw [this]
        exact List.mem_cons_self
      have := Nat.isDigit_of_mem_toDigits (by decide) (by decide) hplus
      exact absurd this (by decide)
    · rintro (hself | ⟨hplus, -⟩)
      · simp at hself
      · simp at hplus
  · -- without a sign
    obtain rfl : s.toList = ds := by rw [← hds, hs]
    rw [hs, if_neg Bool.false_ne_true]
    refine Iff.trans hwritten ⟨?_, ?_⟩
    · rintro (hself | hhead)
      · exact Or.inl hself
      · exact Or.inr ⟨hplus, hhead, fun h => absurd h hminus⟩
    · rintro (hself | ⟨-, hhead, -⟩)
      · exact Or.inl hself
      · exact Or.inr hhead

/-! ### Texts -/

/-- What a text from the environment is read as. -/
theorem ofText_cases (s : String) :
    (∃ b, ofText s = .bool b ∧ s.toLower = if b then "true" else "false") ∨
    (∃ n, ofText s = .whole n ∧ readWhole? s = some n) ∨
    (∃ x, ofText s = .real x ∧ readFloat? s = some x) ∨ ofText s = .text s := by
  unfold ofText
  dsimp only
  split
  · rename_i htrue
    exact Or.inl ⟨true, rfl, beq_iff_eq.mp htrue⟩
  · split
    · rename_i hfalse
      exact Or.inl ⟨false, rfl, beq_iff_eq.mp hfalse⟩
    · split
      · rename_i n hwhole
        exact Or.inr (Or.inl ⟨n, rfl, hwhole⟩)
      · split
        · rename_i x hreal
          exact Or.inr (Or.inr (Or.inl ⟨x, rfl, hreal⟩))
        · exact Or.inr (Or.inr (Or.inr rfl))

/-- The text that a setting takes from a variable. -/
def taken (s : String) : String := (ofText s).text?.getD s

theorem text?_ofText (s : String) : (ofText s).text? = some (taken s) := by
  unfold taken
  rcases ofText_cases s with ⟨b, h, -⟩ | ⟨n, h, -⟩ | ⟨x, h, -⟩ | h <;> rw [h] <;> rfl

/-- A text that is written the way its value is. -/
structure IsVerbatim (s : String) : Prop where
  /-- A truth value is written in small letters. -/
  switch : ∀ b, ofText s = .bool b → s = s.toLower
  /-- A whole number is written without a plus sign and without zeros in front. -/
  whole : ∀ n, ofText s = .whole n → IsWrittenWhole s.toList
  /-- A float is written in its shortest form. -/
  real : ∀ x, ofText s = .real x → s = showFloat x

/-- **A text arrives as it is** exactly if it is written the way its value is. -/
theorem taken_eq_iff (s : String) : taken s = s ↔ IsVerbatim s := by
  rcases ofText_cases s with ⟨b, h, hlower⟩ | ⟨n, h, hread⟩ | ⟨x, h, -⟩ | h
  · have htaken : taken s = s.toLower := by
      rw [taken, h, hlower]
      rfl
    rw [htaken]
    refine ⟨fun hself => ⟨fun _ _ => hself.symm, ?_, ?_⟩, fun hs => (hs.switch b h).symm⟩
    · intro n hn
      cases h.symm.trans hn
    · intro x hx
      cases h.symm.trans hx
  · have htaken : taken s = String.ofList (ofInt n) := by
      rw [taken, h]
      rfl
    have hlist : String.ofList (ofInt n) = s ↔ ofInt n = s.toList := by
      rw [← String.toList_inj, String.toList_ofList]
    rw [htaken, hlist, ofInt_readWhole?_iff hread]
    refine ⟨fun hself => ⟨?_, fun _ _ => hself, ?_⟩, fun hs => hs.whole n h⟩
    · intro b hb
      cases h.symm.trans hb
    · intro x hx
      cases h.symm.trans hx
  · have htaken : taken s = showFloat x := by
      rw [taken, h]
      rfl
    rw [htaken]
    refine ⟨fun hself => ⟨?_, ?_, fun y hy => ?_⟩, fun hs => (hs.real x h).symm⟩
    · intro b hb
      cases h.symm.trans hb
    · intro n hn
      cases h.symm.trans hn
    · cases h.symm.trans hy
      exact hself.symm
  · have htaken : taken s = s := by
      rw [taken, h]
      rfl
    refine ⟨fun _ => ⟨?_, ?_, ?_⟩, fun _ => htaken⟩
    all_goals
      intro _ hother
      cases h.symm.trans hother

/-- A text that does not start like a number and is none of the words with a meaning. -/
structure IsName (s : String) : Prop where
  start : ∀ c, s.toList.head? = some c → c.isDigit = false ∧ c ≠ '+' ∧ c ≠ '-' ∧ c ≠ '.'
  word : s.toLower ∉ ["true", "false", "nan", "inf", "infinity"]

/-- **A name arrives as it is.** -/
theorem taken_of_isName {s : String} (h : IsName s) : taken s = s := by
  have hsplit : splitSign s.toList = (false, s.toList) := by
    rcases splitSign_cases s.toList with ⟨hs, -⟩ | ⟨hs, -⟩ | ⟨-, -, hs⟩
    · exact absurd rfl (h.start '-' (by rw [hs]; rfl)).2.2.1
    · exact absurd rfl (h.start '+' (by rw [hs]; rfl)).2.1
    · exact hs
  have hword := h.word
  simp only [List.mem_cons, List.not_mem_nil, or_false, not_or] at hword
  obtain ⟨htrue, hfalse, hnan, hinf, hinfinity⟩ := hword
  have hwhole : readWhole? s = none := by
    have hdigits : readNat? s.toList = none := by
      unfold readNat?
      cases hcs : s.toList with
      | nil => rfl
      | cons c cs =>
        have hc := (h.start c (by rw [hcs]; rfl)).1
        simp [hc]
    unfold readWhole?
    simp [hsplit, hdigits]
  have hreal : readFloat? s = none := by
    have hlower : String.ofList (s.toList.map Char.toLower) = s.toLower := by
      rw [← String.toList_inj, String.toList_ofList, String.toLower, String.toList_map]
    have hmagnitude : readMagnitude? false s.toList = none := by
      unfold readMagnitude?
      cases hcs : s.toList with
      | nil => rfl
      | cons c cs =>
        obtain ⟨hdigit, -, -, hpoint⟩ := h.start c (by rw [hcs]; rfl)
        have hplaces : ∀ rest, c :: cs ≠ '.' :: rest := fun rest he => hpoint (List.cons.inj he).1
        simp [hdigit]
    unfold readFloat?
    simp [hsplit, hlower, hnan, hinf, hinfinity, hmagnitude]
  have htext : ofText s = .text s := by
    unfold ofText
    simp [htrue, hfalse, hwhole, hreal]
  rw [taken, htext]
  rfl

/-! ### Settings that are plain texts -/

/-- The settings of an agent that are plain texts. -/
inductive TextSetting where
  | nodeId
  | nodeType
  | cgroupRoot
deriving Repr, DecidableEq

namespace TextSetting

/-- The name of the setting in a configuration. -/
def name : TextSetting → String
  | nodeId => "node_id"
  | nodeType => "node_type"
  | cgroupRoot => "cgroup_root"

/-- The variable of the environment that sets it. -/
def envName : TextSetting → String
  | nodeId => "AGENT_NODE_ID"
  | nodeType => "AGENT_NODE_TYPE"
  | cgroupRoot => "AGENT_CGROUP_ROOT"

def get (s : AgentSettings) : TextSetting → String
  | nodeId => s.nodeId
  | nodeType => s.nodeType
  | cgroupRoot => s.cgroupRoot

/-- The settings with another text. -/
def set (text : String) (s : AgentSettings) : TextSetting → AgentSettings
  | nodeId => { s with nodeId := text }
  | nodeType => { s with nodeType := text }
  | cgroupRoot => { s with cgroupRoot := text }

theorem get_set (text : String) (s : AgentSettings) (t : TextSetting) :
    t.get (t.set text s) = text := by
  cases t <;> rfl

theorem keyOf?_envName (t : TextSetting) : keyOf? t.envName = some t.name := by
  cases t <;> cbv

theorem readKey_name (t : TextSetting) : readKey t.name = [.name t.name] := by
  cases t <;> decide

theorem lower_name (t : TextSetting) : Text.lower t.name = t.name := by
  cases t <;> cbv

theorem envName_ne (t : TextSetting) : t.envName ≠ "NODE_ID" := by
  cases t <;> decide

end TextSetting

variable {lib : Library} {file : Option File} {before after : List (String × String)}

/-- Variables without the mark of the agent lay nothing over a configuration. -/
theorem environmentLayer_of_others (h : ∀ v ∈ before, keyOf? v.1 = none) :
    environmentLayer before = [] := by
  refine List.filterMap_eq_nil_iff.mpr fun v hv => ?_
  dsimp only
  rw [h v hv, Option.map_none]

theorem environmentLayer_append (before after : List (String × String)) :
    environmentLayer (before ++ after) = environmentLayer before ++ environmentLayer after :=
  List.filterMap_append

theorem defaultNodeId_insert {name : String} (h : name ≠ "NODE_ID") (text : String) :
    defaultNodeId (before ++ (name, text) :: after) = defaultNodeId (before ++ after) := by
  have hmiss : ("NODE_ID" == name) = false := by simpa using fun he => h he.symm
  unfold defaultNodeId
  rw [List.lookup_append, List.lookup_append, List.lookup_cons, hmiss]

/-- The variable of a text lays its value over the entry of the text, and nothing else. -/
theorem layered?_envName (t : TextSetting) (s : String)
    (hothers : ∀ v ∈ before ++ after, keyOf? v.1 = none) {entries : List (String × Value)}
    (h : layered? lib file (before ++ after) = some (.table entries)) :
    layered? lib file (before ++ (t.envName, s) :: after) =
      some (.table (put t.name (ofText s) entries)) := by
  have hbefore : environmentLayer before = [] :=
    environmentLayer_of_others fun v hv => hothers v (List.mem_append_left _ hv)
  have hafter : environmentLayer after = [] :=
    environmentLayer_of_others fun v hv => hothers v (List.mem_append_right _ hv)
  have hone : environmentLayer ((t.envName, s) :: after) = [(t.name, ofText s)] := by
    have hcons : environmentLayer ((t.envName, s) :: after) =
        (t.name, ofText s) :: environmentLayer after := by
      simp [environmentLayer, t.keyOf?_envName]
    rw [hcons, hafter]
  rw [layered?_eq, environmentLayer_append, hbefore, hafter, Option.map_eq_some_iff] at h
  obtain ⟨layer, hlayer, hdoc⟩ := h
  have hdoc : ofLayer layer = .table entries := hdoc
  have hplain : ∀ entries, ofText s ≠ .table entries := by
    intro entries he
    rcases ofText_cases s with ⟨_, h, -⟩ | ⟨_, h, -⟩ | ⟨_, h, -⟩ | h <;> cases h.symm.trans he
  rw [layered?_eq, environmentLayer_append, hbefore, hone, hlayer, Option.map_some, hdoc]
  show some (setAt (readKey t.name) (ofText s) (.table entries)) = _
  rw [t.readKey_name, setAt, assign_plain _ _ hplain, t.lower_name]
  rfl

/-- The setting of an entry that is put in is read of it, and no other setting is. -/
theorem may_put {α : Type} {f : Value → Option α} {absent : α} {place : ℕ} {name other : String}
    {v : Value} {entries : List (String × Value)} :
    (Value.table (put name v entries)).may place other f absent =
      if other = name then f v else (Value.table entries).may place other f absent := by
  simp only [Value.may, Value.field?, lookup_put, Value.isRecord]
  by_cases h : other = name
  · rw [if_pos h, if_pos h]
  · rw [if_neg h, if_neg h]

theorem agentSettings?_put (t : TextSetting) {nodeId text : String} {v : Value}
    {entries : List (String × Value)} {s : AgentSettings} (hv : v.text? = some text)
    (h : agentSettings? nodeId (.table entries) = some s) :
    agentSettings? nodeId (.table (put t.name v entries)) = some (t.set text s) := by
  rw [agentSettings?_eq_some] at h ⊢
  obtain ⟨hid, htype, hport, hroot, hmonitor⟩ := h
  simp only [may_put]
  cases t <;> simp [TextSetting.name, TextSetting.set, hv, hid, htype, hport, hroot, hmonitor]

/-- **What a variable makes of a plain text.** Whatever file there is, the variable of a text
changes this text alone. It becomes what the variable holds, written as its value is written:
so it is what the variable holds exactly if this is written that way, and for every name. -/
theorem text_of_variable (t : TextSetting) (text : String) {s : AgentSettings}
    (hothers : ∀ v ∈ before ++ after, keyOf? v.1 = none)
    (hvalid : AgentSettings.load lib file (before ++ after) = .ok s) :
    AgentSettings.load lib file (before ++ (t.envName, text) :: after) =
        .ok (t.set (taken text) s) ∧
      (t.get (t.set (taken text) s) = text ↔ IsVerbatim text) ∧
      (IsName text → t.get (t.set (taken text) s) = text) := by
  rw [t.get_set]
  refine ⟨?_, taken_eq_iff text, taken_of_isName⟩
  obtain ⟨entries, hlayered, hsettings, hmonitor⟩ := load_eq_ok.mp hvalid
  refine load_eq_ok.mpr ⟨_, layered?_envName t text hothers hlayered, ?_, ?_⟩
  · rw [defaultNodeId_insert t.envName_ne]
    exact agentSettings?_put t (text?_ofText text) hsettings
  · cases t <;> exact hmonitor

/-- The type of a node from a variable, beside a file that names the node. -/
theorem text_of_variable_leadingZeros :
    (∀ v ∈ [("NODE_ID", "spare")] ++ [], keyOf? v.1 = none) ∧
      AgentSettings.load .plain (some ⟨"agent.toml", "node_id = \"a-7\"\n"⟩)
        [("NODE_ID", "spare")] =
        .ok { nodeId := "a-7" } ∧
      AgentSettings.load .plain (some ⟨"agent.toml", "node_id = \"a-7\"\n"⟩)
        [("NODE_ID", "spare"), ("AGENT_NODE_TYPE", "0012")] =
          .ok { nodeId := "a-7", nodeType := "12" } ∧ ¬ IsVerbatim "0012" := by
  have hothers : ∀ v ∈ [("NODE_ID", "spare")] ++ [], keyOf? v.1 = none := by
    intro v hv
    obtain rfl := List.mem_singleton.mp hv
    cbv
  have hvalid : AgentSettings.load .plain (some ⟨"agent.toml", "node_id = \"a-7\"\n"⟩)
      ([("NODE_ID", "spare")] ++ []) = .ok { nodeId := "a-7" } := by cbv
  have htaken : taken "0012" = "12" := by cbv
  obtain ⟨hload, hself, -⟩ := text_of_variable .nodeType "0012" hothers hvalid
  rw [TextSetting.get_set, htaken] at hself
  rw [htaken] at hload
  exact ⟨hothers, hvalid, hload, fun h => absurd (hself.mpr h) (by decide)⟩

/-- **A text need not arrive as it is.** The id `007` from the variable of the agent becomes
`7`, where the same id from the variable for the default is kept. -/
theorem not_verbatim :
    ¬ (∀ text, AgentSettings.load .plain none [("AGENT_NODE_ID", text)] = .ok { nodeId := text }) ∧
      AgentSettings.load .plain none [("AGENT_NODE_ID", "007")] = .ok { nodeId := "7" } ∧
      AgentSettings.load .plain none [("NODE_ID", "007")] = .ok { nodeId := "007" } := by
  have hload : AgentSettings.load .plain none [("AGENT_NODE_ID", "007")] =
      .ok { nodeId := "7" } := by cbv
  refine ⟨fun h => ?_, hload, by cbv⟩
  have hself := Except.ok.inj ((h "007").symm.trans hload)
  exact absurd (congrArg AgentSettings.nodeId hself) (by decide)

end Config
end QuotaWatch
