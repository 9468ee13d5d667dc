/-
# Registries

Values under ids, listed in ascending order of the ids. The order of strings is
that of their code points. The view of a registry is `get?`; each operation is
described by what it does to that view.

Key definitions: `Registry`, `Registry.get?`, `Registry.insert`, `Registry.erase`,
`Registry.mapValues`, `Registry.ids`.
Key theorems: `Registry.get?_insert`, `Registry.get?_erase`, `Registry.get?_mapValues`,
`Registry.ext_get?`, `Registry.ids_sorted`.
-/

namespace QuotaWatch

/-- Whether the ids of a list ascend. -/
def Ascending (entries : List (String × α)) : Prop := (entries.map (·.1)).Pairwise (· < ·)

/-- Values under ids, in ascending order of the ids. -/
structure Registry (α : Type) where
  entries : List (String × α) := []
  ascending : Ascending entries := by exact List.Pairwise.nil

namespace Registry

/-! ### Lists of entries -/

/-- The value under an id. -/
def find? (id : String) : List (String × α) → Option α
  | [] => none
  | (name, a) :: rest => if name = id then some a else find? id rest

/-- Put a value under an id, at its place in the order. -/
def insertInto (id : String) (a : α) : List (String × α) → List (String × α)
  | [] => [(id, a)]
  | (name, b) :: rest =>
    if id < name then (id, a) :: (name, b) :: rest
    else if id = name then (id, a) :: rest
    else (name, b) :: insertInto id a rest

/-- Take out the value under an id. -/
def eraseFrom (id : String) : List (String × α) → List (String × α)
  | [] => []
  | (name, b) :: rest => if name = id then rest else (name, b) :: eraseFrom id rest

theorem find?_eq_none {id : String} : ∀ {l : List (String × α)}, id ∉ l.map (·.1) → find? id l = none
  | [], _ => rfl
  | (name, a) :: rest, h => by
    simp only [List.map_cons, List.mem_cons, not_or] at h
    simp [find?, Ne.symm h.1, find?_eq_none h.2]

theorem find?_isSome {id : String} : ∀ {l : List (String × α)},
    (find? id l).isSome = true ↔ id ∈ l.map (·.1)
  | [] => by simp [find?]
  | (name, a) :: rest => by
    by_cases h : name = id
    · simp [find?, h]
    · have h' : id ≠ name := fun e => h e.symm
      simp only [find?, h, ↓reduceIte, find?_isSome (l := rest)]
      simp [h']

theorem map_fst_insertInto (id : String) (a : α) : ∀ (l : List (String × α)) (x : String),
    x ∈ (insertInto id a l).map (·.1) → x = id ∨ x ∈ l.map (·.1)
  | [], x, h => by simpa [insertInto] using h
  | (name, b) :: rest, x, h => by
    simp only [insertInto] at h
    split at h
    · simpa using h
    · split at h
      · rename_i he
        simp only [List.map_cons, List.mem_cons] at h ⊢
        rcases h with h | h
        · exact .inl h
        · exact .inr (.inr h)
      · simp only [List.map_cons, List.mem_cons] at h ⊢
        rcases h with h | h
        · exact .inr (.inl h)
        · rcases map_fst_insertInto id a rest x h with h | h
          · exact .inl h
          · exact .inr (.inr h)

theorem ascending_insertInto (id : String) (a : α) : ∀ (l : List (String × α)),
    Ascending l → Ascending (insertInto id a l)
  | [], _ => by simp [Ascending, insertInto]
  | (name, b) :: rest, h => by
    unfold Ascending at h ⊢
    simp only [List.map_cons, List.pairwise_cons] at h
    simp only [insertInto]
    split
    · rename_i hlt
      simp only [List.map_cons, List.pairwise_cons, List.mem_cons]
      refine ⟨?_, h.1, h.2⟩
      rintro x (rfl | hx)
      · exact hlt
      · exact String.lt_trans hlt (h.1 x hx)
    · rename_i hlt
      split
      · rename_i he
        subst he
        simpa [List.pairwise_cons] using h
      · rename_i hne
        simp only [List.map_cons, List.pairwise_cons]
        refine ⟨fun x hx => ?_, ascending_insertInto id a rest h.2⟩
        rcases map_fst_insertInto id a rest x hx with rfl | hx
        · exact Std.lt_of_le_of_ne (String.not_lt.1 hlt) fun e => hne e.symm
        · exact h.1 x hx

theorem eraseFrom_sublist (id : String) : ∀ (l : List (String × α)), (eraseFrom id l).Sublist l
  | [] => List.Sublist.slnil
  | (name, b) :: rest => by
    simp only [eraseFrom]
    split
    · exact List.sublist_cons_self _ _
    · exact (eraseFrom_sublist id rest).cons_cons _

theorem find?_insertInto (id other : String) (a : α) : ∀ (l : List (String × α)),
    find? other (insertInto id a l) = if other = id then some a else find? other l
  | [] => by
    by_cases h : id = other
    · simp [insertInto, find?, h]
    · simp [insertInto, find?, h, Ne.symm h]
  | (name, b) :: rest => by
    simp only [insertInto]
    split
    · by_cases h : id = other
      · simp [find?, h]
      · simp [find?, h, Ne.symm h]
    · split
      · rename_i he
        subst he
        by_cases h : id = other
        · simp [find?, h]
        · simp [find?, h, Ne.symm h]
      · rename_i hne
        simp only [find?, find?_insertInto id other a rest]
        by_cases h : name = other
        · subst h
          simp [Ne.symm hne]
        · simp [h]

theorem find?_eraseFrom (id other : String) : ∀ (l : List (String × α)), Ascending l →
    find? other (eraseFrom id l) = if other = id then none else find? other l
  | [], _ => by simp [eraseFrom, find?]
  | (name, b) :: rest, h => by
    unfold Ascending at h
    simp only [List.map_cons, List.pairwise_cons] at h
    simp only [eraseFrom]
    split
    · rename_i he
      subst he
      by_cases ho : other = name
      · subst ho
        have : other ∉ rest.map (·.1) := fun hm => String.lt_irrefl _ (h.1 other hm)
        simp [find?_eq_none this]
      · simp [find?, ho, Ne.symm ho]
    · rename_i hne
      simp only [find?, find?_eraseFrom id other rest h.2]
      by_cases ho : name = other
      · subst ho
        simp [hne]
      · simp [ho]

theorem find?_map (f : String → α → β) (id : String) : ∀ (l : List (String × α)),
    find? id (l.map fun e => (e.1, f e.1 e.2)) = (find? id l).map (f id)
  | [] => rfl
  | (name, a) :: rest => by
    simp only [List.map_cons, find?, find?_map f id rest]
    by_cases h : name = id
    · subst h; simp
    · simp [h]

theorem find?_of_mem {id : String} {a : α} : ∀ {l : List (String × α)}, Ascending l →
    (id, a) ∈ l → find? id l = some a
  | [], _, hm => by cases hm
  | (name, b) :: rest, h, hm => by
    unfold Ascending at h
    simp only [List.map_cons, List.pairwise_cons] at h
    rcases List.mem_cons.1 hm with e | hm
    · cases e
      simp [find?]
    · have hlt := h.1 id (List.mem_map.2 ⟨_, hm, rfl⟩)
      have hne : name ≠ id := fun e => String.lt_irrefl _ (e ▸ hlt)
      simp [find?, hne, find?_of_mem h.2 hm]

/-- What is found in a list that ascends is found from its first id on. -/
theorem le_of_find? {name id : String} {a : α} {rest : List (String × α)}
    (h : Ascending ((name, a) :: rest)) (hfound : (find? id ((name, a) :: rest)).isSome = true) :
    name ≤ id := by
  unfold Ascending at h
  simp only [List.map_cons, List.pairwise_cons] at h
  rcases List.mem_cons.1 (find?_isSome.1 hfound) with e | hm
  · exact e ▸ String.le_refl _
  · exact String.not_lt.1 fun hlt => String.lt_irrefl _ (String.lt_trans hlt (h.1 id hm))

/-- Lists of entries that ascend are equal where the same is found under every id. -/
theorem eq_of_find? : ∀ {l l' : List (String × α)}, Ascending l → Ascending l' →
    (∀ id, find? id l' = find? id l) → l' = l
  | [], [], _, _, _ => rfl
  | [], (name, a) :: rest, _, _, h => by
    have hfound := h name
    simp [find?] at hfound
  | (name, a) :: rest, [], _, _, h => by
    have hfound := h name
    simp [find?] at hfound
  | (name, a) :: rest, (name', a') :: rest', hl, hl', h => by
    have hname : name' = name := by
      apply String.le_antisymm
      · refine le_of_find? hl' ?_
        rw [h name, find?, if_pos rfl, Option.isSome_some]
      · refine le_of_find? hl ?_
        rw [← h name', find?, if_pos rfl, Option.isSome_some]
    unfold Ascending at hl hl'
    simp only [List.map_cons, List.pairwise_cons] at hl hl'
    subst hname
    have hfound := h name'
    simp only [find?, ↓reduceIte, Option.some.injEq] at hfound
    have hrest : ∀ id, find? id rest' = find? id rest := by
      intro id
      by_cases hid : name' = id
      · subst hid
        have hout : name' ∉ rest.map (·.1) := fun hm => String.lt_irrefl _ (hl.1 name' hm)
        have hout' : name' ∉ rest'.map (·.1) := fun hm => String.lt_irrefl _ (hl'.1 name' hm)
        rw [find?_eq_none hout, find?_eq_none hout']
      · have hother := h id
        simpa only [find?, if_neg hid] using hother
    rw [hfound, eq_of_find? hl.2 hl'.2 hrest]
/-! ### Registries -/

/-- The value under an id. -/
def get? (r : Registry α) (id : String) : Option α := find? id r.entries

/-- Whether there is a value under an id. -/
def contains (r : Registry α) (id : String) : Bool := (r.get? id).isSome

/-- The ids, in ascending order. -/
def ids (r : Registry α) : List String := r.entries.map (·.1)

/-- The values, in ascending order of their ids. -/
def values (r : Registry α) : List α := r.entries.map (·.2)

/-- Put a value under an id. -/
def insert (r : Registry α) (id : String) (a : α) : Registry α where
  entries := insertInto id a r.entries
  ascending := ascending_insertInto id a r.entries r.ascending

/-- Take out the value under an id. -/
def erase (r : Registry α) (id : String) : Registry α where
  entries := eraseFrom id r.entries
  ascending := r.ascending.sublist ((eraseFrom_sublist id r.entries).map (·.1))

/-- Change every value on its own. -/
def mapValues (r : Registry α) (f : String → α → β) : Registry β where
  entries := r.entries.map fun e => (e.1, f e.1 e.2)
  ascending := by
    have h := r.ascending
    unfold Ascending at h ⊢
    simpa [List.map_map, Function.comp_def] using h

@[simp] theorem get?_insert (r : Registry α) (id other : String) (a : α) :
    (r.insert id a).get? other = if other = id then some a else r.get? other :=
  find?_insertInto id other a r.entries

@[simp] theorem get?_erase (r : Registry α) (id other : String) :
    (r.erase id).get? other = if other = id then none else r.get? other :=
  find?_eraseFrom id other r.entries r.ascending

@[simp] theorem get?_mapValues (r : Registry α) (f : String → α → β) (id : String) :
    (r.mapValues f).get? id = (r.get? id).map (f id) :=
  find?_map f id r.entries

/-- An entry is what is found under its id. -/
theorem get?_of_mem {r : Registry α} {id : String} {a : α} (h : (id, a) ∈ r.entries) :
    r.get? id = some a :=
  find?_of_mem r.ascending h

/-- A registry is what is found in it. -/
theorem ext_get? {r r' : Registry α} (h : ∀ id, r'.get? id = r.get? id) : r' = r := by
  cases r with
  | mk entries ascending =>
    cases r' with
    | mk entries' ascending' =>
      obtain rfl : entries' = entries := eq_of_find? ascending ascending' h
      rfl

/-- What is listed id by id is listed entry by entry. -/
theorem flatMap_ids (r : Registry α) (f : String → α → List β) :
    (r.ids.flatMap fun id => (r.get? id).elim [] (f id)) =
      r.entries.flatMap fun e => f e.1 e.2 := by
  rw [ids, List.flatMap_map, List.flatMap_def, List.flatMap_def]
  congr 1
  refine List.map_congr_left fun e he => ?_
  rw [get?_of_mem he]
  rfl

theorem ids_sorted (r : Registry α) : r.ids.Pairwise (· < ·) := r.ascending

theorem mem_ids {r : Registry α} {id : String} : id ∈ r.ids ↔ (r.get? id).isSome = true :=
  find?_isSome.symm

@[simp] theorem ids_mapValues (r : Registry α) (f : String → α → β) :
    (r.mapValues f).ids = r.ids := by
  simp [ids, mapValues, List.map_map, Function.comp_def]

end Registry

end QuotaWatch
