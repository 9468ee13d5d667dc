/-
# Paths into a configuration

A key that is made of names alone has a path, its names in small letters. A plain value laid
over it stands at this path. What is beside the path stays, what was within the value is gone,
and what leads to it is a table (`Value.at?_setAt`). So values laid over places that lie apart
are all there, and all else is as it was (`Value.at?_overlay`). In which order they are laid
over does not matter (`Value.alike_overlay`).

Key definitions: `Apart`, `path?`, `Value.IsPlain`, `IsApart`.
Key theorems: `Value.at?_setAt`, `Value.at?_overlay`, `Value.alike_overlay`.
-/
import Mathlib.Data.List.Perm.Basic
import QuotaWatch.Proofs.Config.Fields

namespace QuotaWatch

/-! ### Places that lie apart -/

/-- Neither of two paths leads to the other or through it. -/
def Apart (p q : List String) : Prop := ¬ p <+: q ∧ ¬ q <+: p

namespace Apart

variable {p q : List String} {name : String}

theorem symm (h : Apart p q) : Apart q p := ⟨h.2, h.1⟩

theorem ne_nil (h : Apart p q) : p ≠ [] := by
  rintro rfl
  exact h.1 List.nil_prefix

theorem of_cons (h : Apart (name :: p) (name :: q)) : Apart p q :=
  ⟨fun hp => h.1 (List.cons_prefix_cons.mpr ⟨rfl, hp⟩),
    fun hq => h.2 (List.cons_prefix_cons.mpr ⟨rfl, hq⟩)⟩

/-- What is within one of two places that lie apart is apart from the other. -/
theorem append (h : Apart p q) (r : List String) : Apart (p ++ r) q := by
  constructor
  · intro hp
    exact h.1 ((List.prefix_append p r).trans hp)
  · intro hq
    rcases List.prefix_or_prefix_of_prefix hq (List.prefix_append p r) with hqp | hpq
    · exact h.2 hqp
    · exact h.1 hpq

end Apart

namespace Config

open Value

/-- The name that a step goes by, in small letters; an index has none. -/
def Value.Step.name? : Step → Option String
  | .name s => some (Text.lower s)
  | .index _ => none

/-- The path of a key that is made of names. -/
def path? (key : String) : Option (List String) := (readKey key).mapM Step.name?

theorem mapM_name?_eq_some : ∀ {steps : List Step} {path : List String},
    steps.mapM Step.name? = some path →
      ∃ names : List String, steps = names.map .name ∧ path = names.map Text.lower
  | [], _, h => by
    cases h
    exact ⟨[], rfl, rfl⟩
  | step :: steps, path, h => by
    rw [List.mapM_cons] at h
    simp only [Option.bind_eq_bind, Option.bind_eq_some_iff] at h
    obtain ⟨first, hfirst, rest, hrest, ⟨⟩⟩ := h
    obtain ⟨names, rfl, rfl⟩ := mapM_name?_eq_some hrest
    cases step with
    | name s =>
      cases hfirst
      exact ⟨s :: names, rfl, rfl⟩
    | index i => cases hfirst

namespace Value

/-! ### One value -/

/-- The value is no table. -/
def IsPlain (v : Value) : Prop := ∀ entries, v ≠ .table entries

theorem isPlain_nil : nil.IsPlain := nofun

theorem at?_of_isPlain {v : Value} (hv : v.IsPlain) {path : List String} (h : path ≠ []) :
    v.at? path = none := by
  obtain ⟨name, rest, rfl⟩ := List.exists_cons_of_ne_nil h
  rw [at?_cons]
  cases v with
  | table entries => exact absurd rfl (hv entries)
  | _ => rfl

/-- Where something stands within a value, this is a table. -/
theorem table_of_at? {v w : Value} {path : List String} (hpath : path ≠ [])
    (h : v.at? path = some w) : ∃ entries, v = .table entries := by
  by_contra hplain
  have hv : v.IsPlain := fun entries he => hplain ⟨entries, he⟩
  rw [at?_of_isPlain hv hpath] at h
  cases h

theorem setAt_name_cons {v : Value} (hv : v.IsPlain) (name : String) (steps : List Step)
    (target : Value) : setAt (.name name :: steps) v target =
      .table (put (Text.lower name)
        (setAt steps v ((target.entries.lookup (Text.lower name)).getD .nil)) target.entries) := by
  cases steps with
  | nil =>
    show assign name v target = _
    rw [assign_plain name target hv]
    rfl
  | cons step steps => rw [setAt]; simp

variable {v : Value} (hv : v.IsPlain)
include hv

/-- What is within the value that is laid over a place. -/
theorem at?_setAt_append : ∀ (names : List String) (target : Value) (rest : List String),
    (setAt (names.map .name) v target).at? (names.map Text.lower ++ rest) = v.at? rest
  | [], _, _ => rfl
  | name :: names, target, rest => by
    rw [List.map_cons, List.map_cons, setAt_name_cons hv, List.cons_append, at?_cons, entries,
      lookup_put, if_pos rfl, Option.bind_some]
    exact at?_setAt_append names _ rest

/-- What lies apart from a place stays as it was. -/
theorem at?_setAt_apart : ∀ (names : List String) (target : Value) (path : List String),
    Apart path (names.map Text.lower) →
      (setAt (names.map .name) v target).at? path = target.at? path
  | [], _, _, h => absurd rfl h.symm.ne_nil
  | name :: names, target, path, h => by
    obtain ⟨first, rest, rfl⟩ := List.exists_cons_of_ne_nil h.ne_nil
    rw [List.map_cons, setAt_name_cons hv, at?_cons, at?_cons, entries, lookup_put]
    by_cases hfirst : first = Text.lower name
    · subst hfirst
      have hrest : Apart rest (names.map Text.lower) := h.of_cons
      rw [if_pos rfl, Option.bind_some, at?_setAt_apart names _ rest hrest]
      cases target.entries.lookup (Text.lower name) with
      | some old => rfl
      | none => exact at?_of_isPlain isPlain_nil hrest.ne_nil
    · rw [if_neg hfirst]

/-- **What one value does**: it stands at its path, and what lies apart stays as it was. -/
theorem at?_setAt {key : String} {q : List String} (hq : path? key = some q) (target : Value) :
    (∀ rest, (setAt (readKey key) v target).at? (q ++ rest) = v.at? rest) ∧
      ∀ p, Apart p q → (setAt (readKey key) v target).at? p = target.at? p := by
  obtain ⟨names, hnames, rfl⟩ := mapM_name?_eq_some hq
  rw [hnames]
  exact ⟨at?_setAt_append hv names target, at?_setAt_apart hv names target⟩

end Value

/-! ### Layers -/

/-- A layer lays plain values over places that are named and lie apart. -/
structure IsApart (layer : List (String × Value)) : Prop where
  plain : ∀ e ∈ layer, e.2.IsPlain
  named : ∀ e ∈ layer, (path? e.1).isSome = true
  apart : layer.Pairwise fun e e' =>
    ∀ p q, path? e.1 = some p → path? e'.1 = some q → Apart p q

theorem IsApart.perm {layer layer' : List (String × Value)} (h : IsApart layer)
    (hperm : layer.Perm layer') : IsApart layer' where
  plain e he := h.plain e (hperm.mem_iff.mpr he)
  named e he := h.named e (hperm.mem_iff.mpr he)
  apart := (hperm.pairwise_iff fun hab p q hp hq => (hab q p hq hp).symm).mp h.apart

namespace Value

variable {layer : List (String × Value)}

/-- Layers leave alone what lies apart from all that they name. -/
theorem at?_overlay_apart {p : List String} : ∀ {layer : List (String × Value)} {target : Value},
    (∀ e ∈ layer, e.2.IsPlain ∧ ∃ q, path? e.1 = some q ∧ Apart p q) →
      (target.overlay layer).at? p = target.at? p
  | [], _, _ => rfl
  | e :: layer, target, h => by
    obtain ⟨hplain, q, hq, hapart⟩ := h e List.mem_cons_self
    have hfirst := (at?_setAt hplain hq target).2 p hapart
    have hrest : ((setAt (readKey e.1) e.2 target).overlay layer).at? p =
        (setAt (readKey e.1) e.2 target).at? p :=
      at?_overlay_apart fun e' he' => h e' (List.mem_cons_of_mem e he')
    exact hrest.trans hfirst

/-- A value of a layer stands at its path. -/
theorem at?_overlay_mem (h : IsApart layer) {e : String × Value} (he : e ∈ layer)
    {q : List String} (hq : path? e.1 = some q) (target : Value) (rest : List String) :
    (target.overlay layer).at? (q ++ rest) = e.2.at? rest := by
  obtain ⟨before, after, rfl⟩ := List.append_of_mem he
  have hbehind : ∀ e' ∈ after,
      e'.2.IsPlain ∧ ∃ q', path? e'.1 = some q' ∧ Apart (q ++ rest) q' := by
    intro e' he'
    have hmem : e' ∈ before ++ e :: after := by simp [he']
    obtain ⟨q', hq'⟩ := Option.isSome_iff_exists.mp (h.named e' hmem)
    have hcons := (List.pairwise_append.mp h.apart).2.1
    have hapart := (List.pairwise_cons.mp hcons).1 e' he' q q' hq hq'
    exact ⟨h.plain e' hmem, q', hq', hapart.append rest⟩
  have hsplit : target.overlay (before ++ e :: after) =
      (setAt (readKey e.1) e.2 (target.overlay before)).overlay after := by
    rw [overlay_append]
    rfl
  rw [hsplit, at?_overlay_apart hbehind]
  exact (at?_setAt (h.plain e he) hq _).1 rest

/-- What leads to a value of a layer is a table. -/
theorem at?_overlay_leads (h : IsApart layer) {e : String × Value} (he : e ∈ layer)
    {p rest : List String} (hq : path? e.1 = some (p ++ rest)) (hrest : rest ≠ [])
    (target : Value) : ∃ entries, (target.overlay layer).at? p = some (.table entries) := by
  have hvalue : (target.overlay layer).at? (p ++ rest) = some e.2 := by
    have hmem := at?_overlay_mem h he hq target []
    rwa [List.append_nil] at hmem
  rw [at?_append, Option.bind_eq_some_iff] at hvalue
  obtain ⟨w, hw, hin⟩ := hvalue
  obtain ⟨entries, rfl⟩ := table_of_at? hrest hin
  exact ⟨entries, hw⟩

/-- **What layers do.** At a path stands what a value of the layer holds there, or a table
that leads to such a value, or, where the layer names nothing, what stood there before. -/
theorem at?_overlay (h : IsApart layer) (target : Value) (p : List String) :
    (∃ e ∈ layer, ∃ q rest, path? e.1 = some q ∧ p = q ++ rest ∧
      (target.overlay layer).at? p = e.2.at? rest) ∨
    (∃ e ∈ layer, ∃ rest entries, path? e.1 = some (p ++ rest) ∧ rest ≠ [] ∧
      (target.overlay layer).at? p = some (.table entries)) ∨
    ((∀ e ∈ layer, ∃ q, path? e.1 = some q ∧ Apart p q) ∧
      (target.overlay layer).at? p = target.at? p) := by
  by_cases hall : ∀ e ∈ layer, ∃ q, path? e.1 = some q ∧ Apart p q
  · exact Or.inr (Or.inr ⟨hall, at?_overlay_apart fun e he => ⟨h.plain e he, hall e he⟩⟩)
  · simp only [not_forall] at hall
    obtain ⟨e, he, hnone⟩ := hall
    obtain ⟨q, hq⟩ := Option.isSome_iff_exists.mp (h.named e he)
    by_cases hqp : q <+: p
    · obtain ⟨rest, rfl⟩ := hqp
      exact Or.inl ⟨e, he, q, rest, hq, rfl, at?_overlay_mem h he hq target rest⟩
    · have hpq : p <+: q := by
        by_contra hpq
        exact hnone ⟨q, hq, hpq, hqp⟩
      obtain ⟨rest, rfl⟩ := hpq
      have hrest : rest ≠ [] := by
        rintro rfl
        exact hqp (by simp)
      obtain ⟨entries, hw⟩ := at?_overlay_leads h he hq hrest target
      exact Or.inr (Or.inl ⟨e, he, rest, entries, hq, hrest, hw⟩)

/-- **In which order values are laid over places that lie apart does not matter**, nor in
which order what they are laid over lists its entries. -/
theorem alike_overlay {layer' : List (String × Value)} {target target' : Value}
    (h : IsApart layer) (hperm : layer.Perm layer') (halike : target.Alike target') :
    (target.overlay layer).Alike (target'.overlay layer') := by
  intro p
  have h' := h.perm hperm
  rcases at?_overlay h target p with ⟨e, he, q, rest, hq, rfl, hp⟩ |
    ⟨e, he, rest, entries, hq, hrest, hp⟩ | ⟨hall, hp⟩
  · rw [hp, at?_overlay_mem h' (hperm.mem_iff.mp he) hq target' rest]
  · obtain ⟨entries', hw⟩ := at?_overlay_leads h' (hperm.mem_iff.mp he) hq hrest target'
    rw [hp, hw]
    rfl
  · have hall' : ∀ e ∈ layer', e.2.IsPlain ∧ ∃ q, path? e.1 = some q ∧ Apart p q :=
      fun e he => ⟨h'.plain e he, hall e (hperm.mem_iff.mpr he)⟩
    rw [hp, at?_overlay_apart hall']
    exact halike p

end Value

end Config
end QuotaWatch
