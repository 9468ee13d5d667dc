/-
# Named entries

Entries with names in an order: what is put in takes the place of the entry
with its name, or goes to the end.

Key definitions: `put`, `remove`.
Key theorems: `lookup_put`, `lookup_remove`, `put_lookup`.
-/

namespace QuotaWatch

/-- Entries with one name put in, in its old place if it has one. -/
def put (name : String) (value : α) : List (String × α) → List (String × α)
  | [] => [(name, value)]
  | (other, old) :: entries =>
    if other = name then (name, value) :: entries else (other, old) :: put name value entries

/-- Entries without those of a name. -/
def remove (name : String) (entries : List (String × α)) : List (String × α) :=
  entries.filter fun entry => entry.1 != name

/-- What is put in is found under its name, and nothing else changes. -/
theorem lookup_put (name other : String) (value : α) : ∀ entries : List (String × α),
    (put name value entries).lookup other =
      if other = name then some value else entries.lookup other
  | [] => by
    by_cases h : other = name
    · simp [put, h]
    · have miss : (other == name) = false := by simpa using h
      simp [put, List.lookup_cons, h, miss]
  | (key, old) :: entries => by
    unfold put
    by_cases h : other = name
    · subst h
      by_cases hkey : key = other
      · simp [hkey]
      · have miss : (other == key) = false := by simpa using fun e => hkey e.symm
        simp [hkey, List.lookup_cons, miss, lookup_put other other value entries]
    · have miss : (other == name) = false := by simpa using h
      by_cases hkey : key = name
      · simp [hkey, List.lookup_cons, h, miss]
      · by_cases hother : other = key
        · simp [hkey, hother]
        · have pass : (other == key) = false := by simpa using hother
          simp [hkey, h, List.lookup_cons, pass, lookup_put name other value entries]

/-- What is removed is not found, and nothing else changes. -/
theorem lookup_remove (name other : String) : ∀ entries : List (String × α),
    (remove name entries).lookup other = if other = name then none else entries.lookup other
  | [] => by simp [remove]
  | (key, old) :: entries => by
    have rest := lookup_remove name other entries
    by_cases hkey : key = name
    · subst hkey
      by_cases h : other = key
      · simpa [remove, h] using rest
      · have miss : (other == key) = false := by simpa using h
        simpa [remove, h, List.lookup_cons, miss] using rest
    · by_cases h : other = key
      · simp [remove, hkey, h]
      · have miss : (other == key) = false := by simpa using h
        simpa [remove, hkey, List.lookup_cons, miss] using rest

/-- Putting in what stands there already changes nothing. -/
theorem put_lookup {name : String} {value : α} : ∀ {entries : List (String × α)},
    entries.lookup name = some value → put name value entries = entries
  | [], h => by simp at h
  | (key, old) :: entries, h => by
    by_cases hkey : key = name
    · subst hkey
      simp at h
      simp [put, h]
    · have miss : (name == key) = false := by simpa using fun e => hkey e.symm
      rw [List.lookup_cons, miss] at h
      simp [put, hkey, put_lookup h]

end QuotaWatch
