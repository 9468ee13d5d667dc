/-
# The environment laid over a file

A file whose tables name everything once makes the configuration that it spells, with names in
small letters, in whatever order its entries are met (`at?_ofLayer`). Variables that name
places apart from each other are laid over it: each of them stands at its path, and whatever is
apart from all of these paths is as the file has it (`LaidOver`). The order of the variables
does not matter, and the settings are loaded from that configuration or not at all
(`load_layered`).

Key definitions: `Value.small`, `Value.Tidy`, `Value.atSmall?`, `pathOf?`, `IsDistinct`,
`LaidOver`.
Key theorems: `at?_small_arrange`, `ofLayer_eq_small`, `at?_ofLayer`, `laidOver`, `load_congr`,
`load_layered`.
-/
import QuotaWatch.Proofs.Config.Names
import QuotaWatch.Proofs.Config.Verbatim

namespace QuotaWatch
namespace Config

open Value

/-! ### What a file spells -/

namespace Value

mutual

/-- A value with the names of its tables in small letters. -/
def small : Value → Value
  | .table entries => .table (smallEntries entries)
  | v => v

/-- Entries with all names in small letters. -/
def smallEntries : List (String × Value) → List (String × Value)
  | [] => []
  | (name, v) :: entries => (Text.lower name, small v) :: smallEntries entries

end

mutual

/-- No table names a thing twice, in capitals or small letters. -/
def Tidy : Value → Prop
  | .table entries => TidyEntries entries
  | _ => True

/-- The entries differ in small letters, and so they do within. -/
def TidyEntries : List (String × Value) → Prop
  | [] => True
  | (name, v) :: entries =>
    (∀ e ∈ entries, Text.lower e.1 ≠ Text.lower name) ∧ Tidy v ∧ TidyEntries entries

end

theorem small_of_isPlain {v : Value} (h : v.IsPlain) : v.small = v := by
  cases v with
  | table entries => exact absurd rfl (h entries)
  | _ => simp [small]

theorem smallEntries_eq_map : ∀ entries : List (String × Value),
    smallEntries entries = entries.map fun e => (Text.lower e.1, e.2.small)
  | [] => rfl
  | (_, _) :: entries => by rw [smallEntries, smallEntries_eq_map entries, List.map_cons]

theorem tidyEntries_iff : ∀ {entries : List (String × Value)}, TidyEntries entries ↔
    entries.Pairwise (fun e e' => Text.lower e.1 ≠ Text.lower e'.1) ∧ ∀ e ∈ entries, e.2.Tidy
  | [] => by simp [TidyEntries]
  | (name, v) :: entries => by
    rw [TidyEntries, tidyEntries_iff, List.pairwise_cons, List.forall_mem_cons]
    constructor
    · rintro ⟨hfresh, hv, hapart, hentries⟩
      exact ⟨⟨fun e he h => hfresh e he h.symm, hapart⟩, hv, hentries⟩
    · rintro ⟨⟨hfresh, hapart⟩, hv, hentries⟩
      exact ⟨fun e he h => hfresh e he h.symm, hv, hapart, hentries⟩

theorem TidyEntries.perm {entries entries' : List (String × Value)} (h : TidyEntries entries)
    (hperm : entries.Perm entries') : TidyEntries entries' := by
  obtain ⟨hapart, htidy⟩ := tidyEntries_iff.mp h
  refine tidyEntries_iff.mpr ⟨?_, fun e he => htidy e (hperm.mem_iff.mpr he)⟩
  exact (hperm.pairwise_iff fun hne => hne.symm).mp hapart

/-- The value at the end of names that entries have in small letters. -/
def atSmall? : List String → Value → Option Value
  | [], v => some v
  | name :: names, v =>
    (v.entries.find? fun e => Text.lower e.1 == name).bind fun e => atSmall? names e.2

end Value

/-! ### The order of entries -/

theorem lookup_perm {α : Type} {entries entries' : List (String × α)}
    (hperm : entries.Perm entries') (honce : (entries.map Prod.fst).Nodup) (name : String) :
    entries.lookup name = entries'.lookup name := by
  induction hperm with
  | nil => rfl
  | cons e _ ih =>
    obtain ⟨key, x⟩ := e
    have hrest := ih (List.nodup_cons.mp honce).2
    rw [List.lookup_cons, List.lookup_cons, hrest]
  | swap e e' l =>
    obtain ⟨key, x⟩ := e
    obtain ⟨key', x'⟩ := e'
    have hne : key' ≠ key := fun he => (List.nodup_cons.mp honce).1 (by simp [he])
    simp only [List.lookup_cons]
    by_cases h : name = key
    · have h' : (name == key') = false := beq_eq_false_iff_ne.mpr fun he => hne (he.symm.trans h)
      rw [h']
    · have h' : (name == key) = false := beq_eq_false_iff_ne.mpr h
      rw [h']
  | trans h _ ih ih' => exact (ih honce).trans (ih' ((h.map Prod.fst).nodup_iff.mp honce))

namespace Library

variable (lib : Library)

theorem arrangeEntries_eq_map (path : List String) : ∀ entries : List (String × Value),
    lib.arrangeEntries path entries = entries.map fun e => (e.1, lib.arrange (path ++ [e.1]) e.2)
  | [] => by rw [arrangeEntries, List.map_nil]
  | (_, _) :: entries => by
    rw [arrangeEntries, arrangeEntries_eq_map path entries, List.map_cons]

mutual

/-- What is tidy is so in every order. -/
theorem tidy_arrange : ∀ (path : List String) {v : Value}, v.Tidy → (lib.arrange path v).Tidy
  | path, .table entries, h => by
    rw [Tidy] at h
    rw [arrange, Tidy]
    exact (tidy_arrangeEntries path h).perm (lib.perm path _).symm
  | _, .nil, h | _, .bool _, h | _, .whole _, h | _, .real _, h
  | _, .text _, h | _, .list _, h => by
    simpa only [arrange] using h

theorem tidy_arrangeEntries : ∀ (path : List String) {entries : List (String × Value)},
    TidyEntries entries → TidyEntries (lib.arrangeEntries path entries)
  | _, [], h => by rwa [arrangeEntries]
  | path, (name, v) :: entries, h => by
    rw [TidyEntries] at h
    obtain ⟨hfresh, hv, hentries⟩ := h
    rw [arrangeEntries, TidyEntries]
    refine ⟨fun e he => ?_, tidy_arrange _ hv, tidy_arrangeEntries path hentries⟩
    rw [arrangeEntries_eq_map, List.mem_map] at he
    obtain ⟨e', he', rfl⟩ := he
    exact hfresh e' he'

end

/-- A name in small letters finds the entry that has it, in whatever order they are met. -/
theorem lookup_small_met {path : List String} {entries : List (String × Value)}
    (h : TidyEntries entries) (name : String) :
    (smallEntries (lib.met path (lib.arrangeEntries path entries))).lookup name =
      (entries.find? fun e => Text.lower e.1 == name).map fun e =>
        (lib.arrange (path ++ [e.1]) e.2).small := by
  have hperm := lib.perm path (lib.arrangeEntries path entries)
  have htidy := (lib.tidy_arrangeEntries path h).perm hperm.symm
  have honce : ((smallEntries (lib.met path (lib.arrangeEntries path entries))).map
      Prod.fst).Nodup := by
    rw [smallEntries_eq_map, List.map_map, List.Nodup, List.pairwise_map]
    exact (tidyEntries_iff.mp htidy).1
  have hsmall : (smallEntries (lib.met path (lib.arrangeEntries path entries))).Perm
      (smallEntries (lib.arrangeEntries path entries)) := by
    rw [smallEntries_eq_map, smallEntries_eq_map]
    exact hperm.map _
  rw [lookup_perm hsmall honce, smallEntries_eq_map, arrangeEntries_eq_map, List.map_map]
  clear h hperm htidy honce hsmall
  induction entries with
  | nil => rfl
  | cons e entries ih =>
    rw [List.map_cons, List.lookup_cons, List.find?_cons, ih]
    dsimp only [Function.comp]
    rw [BEq.comm]
    cases Text.lower e.1 == name <;> rfl

/-- What a tidy value holds at a path stands there in small letters, in whatever order its
entries are met. -/
theorem at?_small_arrange : ∀ (names path : List String) {v : Value}, v.Tidy →
    ((lib.arrange path v).small.at? names).map bare = (v.atSmall? names).map bare
  | [], path, v, _ => by
    cases v with
    | table entries => rw [arrange, small]; rfl
    | _ => simp only [arrange, small, at?, atSmall?]
  | name :: names, path, .table entries, htidy => by
    rw [Tidy] at htidy
    rw [arrange, small, at?_cons, Value.entries, lib.lookup_small_met htidy, atSmall?,
      Value.entries]
    cases hfind : entries.find? fun e => Text.lower e.1 == name with
    | none => rfl
    | some e =>
      have hin := (tidyEntries_iff.mp htidy).2 e (List.mem_of_find?_eq_some hfind)
      exact at?_small_arrange names _ hin
  | _ :: _, _, .nil, _ | _ :: _, _, .bool _, _ | _ :: _, _, .whole _, _ | _ :: _, _, .real _, _
  | _ :: _, _, .text _, _ | _ :: _, _, .list _, _ => by
    simp only [arrange, small]
    rfl

end Library

namespace Value

/-! ### A tidy file -/

theorem put_of_lookup_none {name : String} {value : α} : ∀ {entries : List (String × α)},
    entries.lookup name = none → put name value entries = entries ++ [(name, value)]
  | [], _ => rfl
  | (other, old) :: entries, h => by
    rw [List.lookup_cons] at h
    by_cases hother : other = name
    · subst hother
      simp at h
    · have hne : (name == other) = false := beq_eq_false_iff_ne.mpr fun he => hother he.symm
      rw [hne] at h
      rw [put, if_neg hother, put_of_lookup_none h]
      rfl

/-- A plain value is laid over a place that is free as a new entry. -/
theorem assign_of_isPlain {name : String} {v : Value} {target : List (String × Value)}
    (hv : v.IsPlain) (hfree : target.lookup (Text.lower name) = none) :
    assign name v (.table target) = .table (target ++ [(Text.lower name, v.small)]) := by
  rw [assign_plain name _ hv, Value.entries, put_of_lookup_none hfree, small_of_isPlain hv]

mutual

/-- A tidy value is laid over a place that is free as a new entry. -/
theorem assign_of_tidy {name : String} : ∀ {v : Value} {target : List (String × Value)}, v.Tidy →
    target.lookup (Text.lower name) = none →
      assign name v (.table target) = .table (target ++ [(Text.lower name, v.small)])
  | .table incoming, target, htidy, hfree => by
    rw [Tidy] at htidy
    have hinner : assignAll incoming (.table []) = .table ([] ++ smallEntries incoming) :=
      assignAll_of_tidy htidy fun _ _ => rfl
    rw [List.nil_append] at hinner
    rw [assign, Value.entries, hfree, Option.getD_none, hinner, put_of_lookup_none hfree, small]
  | .nil, _, _, hfree => assign_of_isPlain nofun hfree
  | .bool _, _, _, hfree => assign_of_isPlain nofun hfree
  | .whole _, _, _, hfree => assign_of_isPlain nofun hfree
  | .real _, _, _, hfree => assign_of_isPlain nofun hfree
  | .text _, _, _, hfree => assign_of_isPlain nofun hfree
  | .list _, _, _, hfree => assign_of_isPlain nofun hfree

/-- Tidy entries that are laid over places that are free are all there. -/
theorem assignAll_of_tidy : ∀ {entries target : List (String × Value)}, TidyEntries entries →
    (∀ e ∈ entries, target.lookup (Text.lower e.1) = none) →
      assignAll entries (.table target) = .table (target ++ smallEntries entries)
  | [], target, _, _ => by simp [assignAll, smallEntries]
  | (name, v) :: entries, target, htidy, hfree => by
    rw [TidyEntries] at htidy
    obtain ⟨hfresh, hv, hentries⟩ := htidy
    have hstill : ∀ e ∈ entries,
        (target ++ [(Text.lower name, v.small)]).lookup (Text.lower e.1) = none := by
      intro e he
      have hne : (Text.lower e.1 == Text.lower name) = false :=
        beq_eq_false_iff_ne.mpr (hfresh e he)
      rw [List.lookup_append, hfree e (List.mem_cons_of_mem _ he), List.lookup_cons, hne]
      rfl
    rw [assignAll, assign_of_tidy hv (hfree _ List.mem_cons_self),
      assignAll_of_tidy hentries hstill, smallEntries, List.append_assoc]
    rfl

end

end Value

/-- With names for keys a layer is laid over entry by entry. -/
theorem overlay_eq_assignAll : ∀ {layer : List (String × Value)} {target : Value},
    (∀ e ∈ layer, readKey e.1 = [.name e.1]) → target.overlay layer = assignAll layer target
  | [], _, _ => by simp [overlay, assignAll]
  | (name, v) :: layer, target, h => by
    have hfirst : setAt (readKey name) v target = assign name v target := by
      rw [h (name, v) List.mem_cons_self]
      rfl
    have hrest : (assign name v target).overlay layer = assignAll layer (assign name v target) :=
      overlay_eq_assignAll fun e he => h e (List.mem_cons_of_mem _ he)
    rw [assignAll, ← hrest, ← hfirst]
    rfl

/-- **A tidy file makes the configuration that it spells**, in small letters. -/
theorem ofLayer_eq_small {layer : List (String × Value)}
    (hnames : ∀ e ∈ layer, readKey e.1 = [.name e.1]) (htidy : TidyEntries layer) :
    ofLayer layer = (Value.table layer).small := by
  rw [ofLayer, overlay_eq_assignAll hnames, assignAll_of_tidy htidy fun _ _ => rfl,
    List.nil_append, small]

/-- What a file spells, if it can be read; one that is not there spells nothing. -/
def fileSpelled? (lib : Library) (file : Option File) : Option (List (String × Value)) :=
  (file.map (File.spelled? lib)).getD (some [])

variable {lib lib' : Library} {file : Option File}

theorem fileLayer?_eq (lib : Library) (file : Option File) :
    fileLayer? lib file = (fileSpelled? lib file).map fun spelled =>
      lib.met [] (lib.arrangeEntries [] spelled) := by
  cases file with
  | none =>
    have hnil : lib.met [] (lib.arrangeEntries [] []) = [] := by
      rw [Library.arrangeEntries]
      exact List.perm_nil.mp (lib.perm [] [])
    exact congrArg some hnil.symm
  | some f => rfl

theorem fileSpelled?_congr (h : lib'.reader? = lib.reader?) (file : Option File) :
    fileSpelled? lib' file = fileSpelled? lib file := by
  unfold fileSpelled? File.spelled?
  rw [h]

/-- **A tidy file makes the configuration that it spells**, in whatever order its entries are
met. -/
theorem at?_ofLayer (lib : Library) {spelled : List (String × Value)}
    (hnames : ∀ e ∈ spelled, readKey e.1 = [.name e.1]) (htidy : TidyEntries spelled)
    (path : List String) :
    ((ofLayer (lib.met [] (lib.arrangeEntries [] spelled))).at? path).map bare =
      ((Value.table spelled).atSmall? path).map bare := by
  have hperm := lib.perm [] (lib.arrangeEntries [] spelled)
  have hkeys : ∀ e ∈ lib.met [] (lib.arrangeEntries [] spelled), readKey e.1 = [.name e.1] := by
    intro e he
    rw [hperm.mem_iff, lib.arrangeEntries_eq_map, List.mem_map] at he
    obtain ⟨e', he', rfl⟩ := he
    exact hnames e' he'
  have hmet := (lib.tidy_arrangeEntries [] htidy).perm hperm.symm
  have harrange := lib.at?_small_arrange path [] (v := .table spelled) (by rwa [Tidy])
  rw [Library.arrange] at harrange
  rw [ofLayer_eq_small hkeys hmet, harrange]

/-! ### Variables -/

/-- The path that the name of a variable stands for, if it is one of the agent's. -/
def pathOf? (name : String) : Option (List String) := (keyOf? name).bind path?

/-- The agent's variables name places that lie apart, each once. -/
structure IsDistinct (env : List (String × String)) : Prop where
  once : (env.map Prod.fst).Nodup
  named : ∀ v ∈ env, (keyOf? v.1).isSome = true → (pathOf? v.1).isSome = true
  apart : env.Pairwise fun v w =>
    ∀ p q, pathOf? v.1 = some p → pathOf? w.1 = some q → Apart p q

variable {env : List (String × String)}

theorem isPlain_ofText (s : String) : (ofText s).IsPlain := by
  intro entries
  rcases ofText_cases s with ⟨b, h, -⟩ | ⟨n, h, -⟩ | ⟨x, h, -⟩ | h <;> simp [h]

theorem mem_environmentLayer {e : String × Value} :
    e ∈ environmentLayer env ↔ ∃ v ∈ env, keyOf? v.1 = some e.1 ∧ e.2 = ofText v.2 := by
  unfold environmentLayer
  rw [List.mem_filterMap]
  refine exists_congr fun v => and_congr_right fun _ => ?_
  rw [Option.map_eq_some_iff]
  constructor
  · rintro ⟨key, hkey, rfl⟩
    exact ⟨hkey, rfl⟩
  · rintro ⟨hkey, htext⟩
    exact ⟨e.1, hkey, by rw [← htext]⟩

theorem IsDistinct.isApart (h : IsDistinct env) : IsApart (environmentLayer env) where
  plain e he := by
    obtain ⟨v, -, -, htext⟩ := mem_environmentLayer.mp he
    rw [htext]
    exact isPlain_ofText v.2
  named e he := by
    obtain ⟨v, hv, hkey, -⟩ := mem_environmentLayer.mp he
    have hpath := h.named v hv (by rw [hkey]; rfl)
    rwa [pathOf?, hkey] at hpath
  apart := by
    refine List.Pairwise.filterMap _ ?_ h.apart
    intro v w hvw e he e' he' p q hp hq
    obtain ⟨key, hkey, rfl⟩ := Option.map_eq_some_iff.mp he
    obtain ⟨key', hkey', rfl⟩ := Option.map_eq_some_iff.mp he'
    refine hvw p q ?_ ?_
    · rw [pathOf?, hkey]
      exact hp
    · rw [pathOf?, hkey']
      exact hq

/-! ### What is loaded -/

/-- What a configuration holds that variables are laid over: the text of a variable stands at
its path as the value that it is read as, what leads there is a table, and all that lies apart
is as it was. -/
structure LaidOver (env : List (String × String)) (old new : Value) : Prop where
  value : ∀ v ∈ env, ∀ path, pathOf? v.1 = some path →
    ∀ rest, new.at? (path ++ rest) = (ofText v.2).at? rest
  leads : ∀ v ∈ env, ∀ path rest, pathOf? v.1 = some (path ++ rest) → rest ≠ [] →
    ∃ entries, new.at? path = some (.table entries)
  beside : ∀ path, (∀ v ∈ env, ∀ q, pathOf? v.1 = some q → Apart path q) →
    new.at? path = old.at? path

theorem laidOver (h : IsDistinct env) (old : Value) :
    LaidOver env old (old.overlay (environmentLayer env)) := by
  have hmem : ∀ v ∈ env, ∀ path, pathOf? v.1 = some path →
      ∃ e ∈ environmentLayer env, path? e.1 = some path ∧ e.2 = ofText v.2 := by
    intro v hv path hpath
    obtain ⟨key, hkey, hp⟩ := Option.bind_eq_some_iff.mp hpath
    exact ⟨(key, ofText v.2), mem_environmentLayer.mpr ⟨v, hv, hkey, rfl⟩, hp, rfl⟩
  constructor
  · intro v hv path hpath rest
    obtain ⟨e, he, hp, htext⟩ := hmem v hv path hpath
    rw [at?_overlay_mem h.isApart he hp, htext]
  · intro v hv path rest hpath hrest
    obtain ⟨e, he, hp, -⟩ := hmem v hv _ hpath
    exact at?_overlay_leads h.isApart he hp hrest old
  · intro path hpath
    refine at?_overlay_apart fun e he => ?_
    obtain ⟨v, hv, hkey, -⟩ := mem_environmentLayer.mp he
    obtain ⟨q, hq⟩ := Option.isSome_iff_exists.mp (h.isApart.named e he)
    refine ⟨h.isApart.plain e he, q, hq, hpath v hv q ?_⟩
    rw [pathOf?, hkey]
    exact hq

theorem defaultNodeId_perm {env' : List (String × String)} (h : IsDistinct env)
    (hperm : env.Perm env') : defaultNodeId env = defaultNodeId env' := by
  unfold defaultNodeId
  rw [lookup_perm hperm h.once]

/-- **The order of the variables does not matter**, nor does the order in which entries of the
file are met as long as it makes the same configuration. -/
theorem load_congr {env' : List (String × String)} {layer layer' : List (String × Value)}
    (h : IsDistinct env) (hperm : env.Perm env') (hlayer : fileLayer? lib file = some layer)
    (hlayer' : fileLayer? lib' file = some layer')
    (halike : (ofLayer layer).Alike (ofLayer layer')) :
    AgentSettings.load lib file env = AgentSettings.load lib' file env' := by
  unfold AgentSettings.load
  rw [layered?_eq, layered?_eq, ← defaultNodeId_perm h hperm, hlayer, hlayer']
  have hdocs : ((ofLayer layer).overlay (environmentLayer env)).Alike
      ((ofLayer layer').overlay (environmentLayer env')) :=
    alike_overlay h.isApart (hperm.filterMap _) halike
  rw [Option.map_some, Option.map_some]
  dsimp only
  rw [agentSettings?_congr hdocs]

section Loading

variable {doc : Value} (hdoc : layered? lib file env = some doc)
include hdoc

/-- Loading fails for the shape exactly if no settings are those of the configuration. -/
theorem load_eq_unfit_iff : AgentSettings.load lib file env = .error .unfit ↔
    ∀ s, ¬ Loaded doc (defaultNodeId env) s := by
  obtain ⟨entries, rfl⟩ := layered?_table hdoc
  simp only [← agentSettings?_table_iff]
  unfold AgentSettings.load
  rw [hdoc]
  dsimp only
  cases hsettings : agentSettings? (defaultNodeId env) (.table entries) with
  | none => simp
  | some s =>
    dsimp only
    cases s.monitor.validate <;> simp

/-- Loading is refused exactly if the settings of the configuration contradict themselves. -/
theorem load_eq_refused_iff {f : Fault} : AgentSettings.load lib file env = .error (.refused f) ↔
    ∃ s, Loaded doc (defaultNodeId env) s ∧ s.monitor.validate = .error f := by
  obtain ⟨entries, rfl⟩ := layered?_table hdoc
  simp only [← agentSettings?_table_iff]
  unfold AgentSettings.load
  rw [hdoc]
  dsimp only
  cases hsettings : agentSettings? (defaultNodeId env) (.table entries) with
  | none => simp
  | some s =>
    dsimp only
    cases hvalid : s.monitor.validate <;> simp [hvalid]

end Loading

/-- What is loaded where the variables are laid over what a file spells. -/
structure LoadedOver (lib : Library) (file : Option File) (env : List (String × String))
    (spelled layer : List (String × Value)) (doc : Value) : Prop where
  laid : LaidOver env (ofLayer layer) doc
  /-- A tidy file is taken as it is spelled, with names in small letters. In which order its
  entries are met does not matter. -/
  tidy : (∀ e ∈ spelled, readKey e.1 = [.name e.1]) → TidyEntries spelled →
    (∀ path, ((ofLayer layer).at? path).map bare =
        ((Value.table spelled).atSmall? path).map bare) ∧
      ∀ lib' : Library, lib'.reader? = lib.reader? →
        AgentSettings.load lib' file env = AgentSettings.load lib file env
  /-- The path of a variable is its name behind the mark, divided by pairs of underscores. -/
  words : ∀ v ∈ env, (keyOf? v.1).isSome = true →
    (∀ piece ∈ pieces ((Text.lower v.1).toList.drop variableMark.length), IsWord piece) →
      pathOf? v.1 = some
        ((pieces ((Text.lower v.1).toList.drop variableMark.length)).map String.ofList)
  perm : ∀ env', env.Perm env' →
    AgentSettings.load lib file env' = AgentSettings.load lib file env
  ok : ∀ s, AgentSettings.load lib file env = .ok s ↔
    Loaded doc (defaultNodeId env) s ∧ s.monitor.validate = .ok ()
  refused : ∀ f, AgentSettings.load lib file env = .error (.refused f) ↔
    ∃ s, Loaded doc (defaultNodeId env) s ∧ s.monitor.validate = .error f
  unfit : AgentSettings.load lib file env = .error .unfit ↔
    ∀ s, ¬ Loaded doc (defaultNodeId env) s

/-- **What an agent is configured by.** With a file that cannot be read nothing is loaded.
Otherwise variables that name places apart from each other are laid over what the file makes,
and the settings are exactly those of the configuration that results, or there are none. -/
theorem load_layered (lib : Library) (file : Option File) (h : IsDistinct env) :
    (fileSpelled? lib file = none → AgentSettings.load lib file env = .error .unreadable) ∧
      ∀ spelled, fileSpelled? lib file = some spelled →
        ∃ layer doc, fileLayer? lib file = some layer ∧ layered? lib file env = some doc ∧
          LoadedOver lib file env spelled layer doc := by
  constructor
  · intro hfile
    unfold AgentSettings.load
    rw [layered?_eq, fileLayer?_eq, hfile]
    rfl
  · intro spelled hfile
    have hlayer : ∀ lib' : Library, lib'.reader? = lib.reader? →
        fileLayer? lib' file = some (lib'.met [] (lib'.arrangeEntries [] spelled)) := by
      intro lib' hreader
      rw [fileLayer?_eq, fileSpelled?_congr hreader, hfile, Option.map_some]
    have hdoc : layered? lib file env =
        some ((ofLayer (lib.met [] (lib.arrangeEntries [] spelled))).overlay
          (environmentLayer env)) := by
      rw [layered?_eq, hlayer lib rfl, Option.map_some]
    refine ⟨_, _, hlayer lib rfl, hdoc, ?_⟩
    constructor
    · exact laidOver h _
    · intro hnames htidy
      refine ⟨at?_ofLayer lib hnames htidy, fun lib' hreader => ?_⟩
      refine load_congr h (.refl env) (hlayer lib' hreader) (hlayer lib rfl) fun path => ?_
      rw [at?_ofLayer lib' hnames htidy, at?_ofLayer lib hnames htidy]
    · intro v hv hkey hwords
      obtain ⟨key, hsome⟩ := Option.isSome_iff_exists.mp hkey
      rw [pathOf?, hsome]
      exact path?_keyOf? hsome hwords
    · exact fun env' hperm =>
        (load_congr h hperm (hlayer lib rfl) (hlayer lib rfl) fun _ => rfl).symm
    · exact fun s => load_eq_ok_iff hdoc
    · exact fun f => load_eq_refused_iff hdoc
    · exact load_eq_unfit_iff hdoc

/-- A file of two settings and a variable for a third beside them. -/
theorem load_layered_siblings :
    let file := some (File.mk "agent.toml"
      "[monitor]\npoll_period_ms = 500\nmonitoring_buffer = 3\n")
    let env := [("AGENT_MONITOR__SEND_PERIOD_MS", "2000"), ("AGENT_NODE_ID", "n1")]
    IsDistinct env ∧ ∃ doc, layered? .plain file env = some doc ∧
      doc.at? ["monitor", "send_period_ms"] = some (.whole 2000) ∧
      (doc.at? ["monitor", "poll_period_ms"]).map bare = some (.whole 500) ∧
      doc.at? ["node_id"] = some (.text "n1") := by
  intro file env
  have hpaths : pathOf? "AGENT_MONITOR__SEND_PERIOD_MS" = some ["monitor", "send_period_ms"] ∧
      pathOf? "AGENT_NODE_ID" = some ["node_id"] := ⟨by cbv, by cbv⟩
  have h : IsDistinct env := by
    refine ⟨by decide, ?_, ?_⟩
    · simp [env, hpaths]
    · simp [env, hpaths, Apart]
  have hfile : fileSpelled? .plain file = some [("monitor", .table
      [("poll_period_ms", .whole 500), ("monitoring_buffer", .whole 3)])] := by cbv
  obtain ⟨layer, doc, -, hdoc, hload⟩ := (load_layered .plain file h).2 _ hfile
  have hperiod : ofText "2000" = .whole 2000 := by cbv
  have hnode : ofText "n1" = .text "n1" := by cbv
  have hname : readKey "monitor" = [.name "monitor"] := by decide
  have hdiffer : Text.lower "monitoring_buffer" ≠ Text.lower "poll_period_ms" := by cbv
  have htidy := hload.tidy (by simp [hname]) (by simp [TidyEntries, Tidy, hdiffer])
  refine ⟨h, doc, hdoc, ?_, ?_, ?_⟩
  · have hvalue := hload.laid.value _ List.mem_cons_self _ hpaths.1 []
    rwa [hperiod] at hvalue
  · have hbeside := hload.laid.beside ["monitor", "poll_period_ms"] (by simp [env, hpaths, Apart])
    rw [hbeside, htidy.1]
    cbv
  · have hvalue := hload.laid.value _ (List.mem_cons_of_mem _ List.mem_cons_self) _ hpaths.2 []
    rwa [hnode] at hvalue

/-- An index in brackets is no name: what it stands behind becomes a list, so that a variable
whose name has no pair of underscores takes all settings of the file with it, and so does an
entry of the file. Of two entries that differ in capitals only, the one that is met last
stands. -/
theorem index_discards_siblings :
    let file := some (File.mk "agent.toml"
      "[monitor]\npoll_period_ms = 500\nmonitoring_buffer = 3\n")
    let env := [("AGENT_MONITOR[0]", "5")]
    (pieces ((Text.lower "AGENT_MONITOR[0]").toList.drop variableMark.length) =
        ["monitor[0]".toList] ∧
      Apart ["monitor[0]"] ["monitor", "poll_period_ms"] ∧
      (layered? .plain file []).map (at? ["monitor", "poll_period_ms"]) =
        some (some (.whole 500)) ∧
      (layered? .plain file env).map (at? ["monitor", "poll_period_ms"]) = some none ∧
      ∃ s, AgentSettings.load .plain file env = .ok s ∧ s.monitor.pollPeriod = .ofMillis 5 ∧
        s.monitor.buffer = 16) ∧
    (let indexed := some (File.mk "agent.json"
      "\x7b\"monitor\":\x7b\"poll_period_ms\":500\x7d,\"monitor[0]\":5\x7d")
    (layered? .plain indexed []).map (at? ["monitor", "poll_period_ms"]) = some none) ∧
    let twice := some (File.mk "agent.toml" "node_id = \"a\"\nNode_Id = \"b\"\n")
    ∃ lib : Library, (layered? .plain twice []).map (at? ["node_id"]) = some (some (.text "b")) ∧
      (layered? lib twice []).map (at? ["node_id"]) = some (some (.text "a")) := by
  refine ⟨⟨by cbv, ⟨by decide, by decide⟩, by cbv, by cbv, ?_⟩, by cbv, ?_⟩
  · exact ⟨⟨"unknown", "main", 8080, "/sys/fs/cgroup",
      ⟨.ofMillis 5, none, none, [], none, 16⟩⟩, by cbv, rfl, rfl⟩
  · refine ⟨⟨fun _ => List.reverse, fun _ => List.reverse_perm, fun _ => none⟩, by cbv, by cbv⟩

end Config
end QuotaWatch
