/-
# The path that a variable names

The name of a variable is the mark of the agent and, behind it, names divided by pairs of
underscores. Where these are words, the key that stands for the variable has them as its path,
in small letters (`path?_keyOf?`).

Key definitions: `Text.IsSmall`, `pieces`, `IsWord`.
Key theorems: `dotPairs_eq`, `readKey_dotted`, `path?_keyOf?`.
-/
import QuotaWatch.Proofs.Config.Paths

namespace QuotaWatch

/-! ### Small letters -/

namespace Text

/-- The character is its own small form. -/
def IsSmall (c : Char) : Prop := c ≠ '\u212a' ∧ ¬ (65 ≤ c.toNat ∧ c.toNat ≤ 90)

theorem toNat_toLower {c : Char} (h : 65 ≤ c.toNat ∧ c.toNat ≤ 90) :
    c.toLower.toNat = c.toNat + 32 := by
  have hval : c.val ≥ 'A'.val ∧ c.val ≤ 'Z'.val :=
    ⟨UInt32.le_iff_toNat_le.mpr h.1, UInt32.le_iff_toNat_le.mpr h.2⟩
  have hsum : (c.val + ('a'.val - 'A'.val)).toNat = c.val.toNat + 32 := by
    have hstep : ('a'.val - 'A'.val).toNat = 32 := by decide
    have hle : c.val.toNat ≤ 90 := h.2
    rw [UInt32.toNat_add, hstep]
    omega
  unfold Char.toLower
  rw [dif_pos hval]
  exact hsum

theorem toLower_eq_self {c : Char} (h : ¬ (65 ≤ c.toNat ∧ c.toNat ≤ 90)) : c.toLower = c := by
  unfold Char.toLower
  rw [dif_neg]
  exact fun hval => h ⟨UInt32.le_iff_toNat_le.mp hval.1, UInt32.le_iff_toNat_le.mp hval.2⟩

theorem lowerChar_eq_self {c : Char} (h : IsSmall c) : lowerChar c = c := by
  unfold lowerChar
  rw [if_neg h.1, toLower_eq_self h.2]

theorem isSmall_lowerChar (c : Char) : IsSmall (lowerChar c) := by
  unfold lowerChar
  by_cases hkelvin : c = '\u212a'
  · rw [if_pos hkelvin]
    exact ⟨by decide, by decide⟩
  · rw [if_neg hkelvin]
    by_cases h : 65 ≤ c.toNat ∧ c.toNat ≤ 90
    · have hnat := toNat_toLower h
      refine ⟨fun hc => ?_, by omega⟩
      have hsign : ('\u212a' : Char).toNat = 8490 := by decide
      rw [hc] at hnat
      omega
    · rw [toLower_eq_self h]
      exact ⟨hkelvin, h⟩

theorem isSmall_of_mem_lower {s : String} {c : Char} (h : c ∈ (lower s).toList) : IsSmall c := by
  rw [lower, String.toList_map] at h
  obtain ⟨d, -, rfl⟩ := List.mem_map.mp h
  exact isSmall_lowerChar d

theorem lower_ofList {cs : List Char} (h : ∀ c ∈ cs, IsSmall c) :
    lower (String.ofList cs) = String.ofList cs := by
  rw [← String.toList_inj, lower, String.toList_map, String.toList_ofList]
  calc cs.map lowerChar
    _ = cs.map id := List.map_congr_left fun c hc => lowerChar_eq_self (h c hc)
    _ = cs := List.map_id cs

end Text

namespace Config

open Value

/-! ### Names divided by pairs of underscores -/

/-- What stands before the first pair of underscores, and the pieces behind it. -/
def splitPairs : List Char → List Char × List (List Char)
  | '_' :: '_' :: rest => ([], (splitPairs rest).1 :: (splitPairs rest).2)
  | c :: rest => (c :: (splitPairs rest).1, (splitPairs rest).2)
  | [] => ([], [])

/-- The pieces of a text that is divided by pairs of underscores. -/
def pieces (cs : List Char) : List (List Char) := (splitPairs cs).1 :: (splitPairs cs).2

/-- Pieces with a dot before each but the first. -/
def dotted (first : List Char) (more : List (List Char)) : List Char :=
  first ++ more.flatMap ('.' :: ·)

/-- A key is the pieces of the name with dots between them. -/
theorem dotPairs_eq (cs : List Char) :
    dotPairs cs = dotted (splitPairs cs).1 (splitPairs cs).2 := by
  fun_induction splitPairs cs with
  | case1 rest ih => simp [dotPairs, ih, dotted]
  | case2 c rest hpair ih =>
    rw [dotPairs.eq_2 c rest hpair, ih]
    rfl
  | case3 => rfl

/-- No character is made up. -/
theorem mem_of_mem_pieces (cs : List Char) :
    ∀ piece ∈ pieces cs, ∀ c ∈ piece, c ∈ cs := by
  unfold pieces
  fun_induction splitPairs cs with
  | case1 rest ih =>
    intro piece hpiece c hc
    rcases List.mem_cons.mp hpiece with rfl | hpiece
    · cases hc
    · have := ih piece hpiece c hc
      simp [this]
  | case2 d rest hpair ih =>
    intro piece hpiece c hc
    rcases List.mem_cons.mp hpiece with rfl | hpiece
    · rcases List.mem_cons.mp hc with rfl | hc
      · exact List.mem_cons_self
      · exact List.mem_cons_of_mem d (ih _ List.mem_cons_self c hc)
    · exact List.mem_cons_of_mem d (ih piece (List.mem_cons_of_mem _ hpiece) c hc)
  | case3 =>
    intro piece hpiece c hc
    obtain rfl := List.mem_singleton.mp hpiece
    cases hc

/-! ### Words -/

/-- One or more of the characters that names within a key are made of. -/
def IsWord (cs : List Char) : Prop := cs ≠ [] ∧ ∀ c ∈ cs, isNameChar c = true

/-- A word is read up to its end or to the dot behind it. -/
theorem readName?_append {piece : List Char} (h : IsWord piece) (more : List (List Char)) :
    readName? (piece ++ more.flatMap ('.' :: ·)) =
      some (String.ofList piece, more.flatMap ('.' :: ·)) := by
  have htake : (more.flatMap ('.' :: ·)).takeWhile isNameChar = [] := by
    cases more with
    | nil => rfl
    | cons next more => rfl
  have hdrop : (more.flatMap ('.' :: ·)).dropWhile isNameChar = more.flatMap ('.' :: ·) := by
    cases more with
    | nil => rfl
    | cons next more => rfl
  unfold readName?
  rw [List.takeWhile_append_of_pos h.2, htake, List.dropWhile_append_of_pos h.2, hdrop,
    List.append_nil]
  simp [h.1]

theorem readSteps?_flatMap : ∀ (more : List (List Char)) (fuel : ℕ),
    (∀ piece ∈ more, IsWord piece) → (more.flatMap ('.' :: ·)).length ≤ fuel →
      readSteps? fuel (more.flatMap ('.' :: ·)) = some (more.map fun p => .name (String.ofList p))
  | [], fuel, _, _ => by cases fuel <;> rfl
  | piece :: more, fuel, hwords, hfuel => by
    have hpiece : IsWord piece := hwords piece List.mem_cons_self
    have hmore : ∀ p ∈ more, IsWord p := fun p hp => hwords p (List.mem_cons_of_mem piece hp)
    rw [List.flatMap_cons] at hfuel ⊢
    obtain ⟨fuel, rfl⟩ : ∃ k, fuel = k + 1 := ⟨fuel - 1, by simp at hfuel; omega⟩
    have hrest : (more.flatMap ('.' :: ·)).length ≤ fuel := by
      simp only [List.length_append, List.length_cons] at hfuel
      omega
    rw [List.cons_append, readSteps?, readName?_append hpiece]
    simp [readSteps?_flatMap more fuel hmore hrest]

/-- Words with dots between them are read as the names that they are. -/
theorem readKey_dotted {first : List Char} {more : List (List Char)}
    (h : ∀ piece ∈ first :: more, IsWord piece) :
    readKey (String.ofList (dotted first more)) =
      (first :: more).map fun p => .name (String.ofList p) := by
  have hfirst : IsWord first := h first List.mem_cons_self
  have hmore : ∀ p ∈ more, IsWord p := fun p hp => h p (List.mem_cons_of_mem first hp)
  have hsteps := readSteps?_flatMap more _ hmore (Nat.le_refl _)
  unfold readKey readKey?
  rw [String.toList_ofList, dotted, readName?_append hfirst, Option.bind_eq_bind, Option.bind_some]
  dsimp only
  rw [hsteps]
  rfl

theorem mapM_name?_names (names : List (List Char)) (h : ∀ p ∈ names, ∀ c ∈ p, Text.IsSmall c) :
    (names.map fun p => Step.name (String.ofList p)).mapM Step.name? =
      some (names.map String.ofList) := by
  induction names with
  | nil => rfl
  | cons p names ih =>
    have hp : Text.lower (String.ofList p) = String.ofList p :=
      Text.lower_ofList (h p List.mem_cons_self)
    rw [List.map_cons, List.mapM_cons, ih fun q hq => h q (List.mem_cons_of_mem p hq)]
    simp [Step.name?, hp]

/-- **The path of a variable**: the pieces of its name behind the mark, in small letters. -/
theorem path?_keyOf? {name key : String} (hkey : keyOf? name = some key)
    (hwords : ∀ piece ∈ pieces ((Text.lower name).toList.drop variableMark.length), IsWord piece) :
    path? key = some
      ((pieces ((Text.lower name).toList.drop variableMark.length)).map String.ofList) := by
  unfold keyOf? at hkey
  dsimp only at hkey
  split at hkey
  · rename_i hmark
    obtain rfl := Option.some.inj hkey
    unfold path?
    rw [dotPairs_eq, readKey_dotted hwords]
    refine mapM_name?_names _ fun piece hpiece c hc => ?_
    have hmem := mem_of_mem_pieces _ piece hpiece c hc
    exact Text.isSmall_of_mem_lower (List.mem_of_mem_drop hmem)
  · cases hkey

end Config
end QuotaWatch
