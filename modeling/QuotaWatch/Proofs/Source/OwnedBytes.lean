/-
# Exact bytes of an owner

A total is exact as long as it fits a word and every file that counts is at a
path that is short enough. A file that is nested deeper than a path can say is
left out (`OwnedFiles.not_bytesBelow_of_sound`).

Key definitions: `FileTree.isRegular`.
Key theorems: `OwnedFiles.usedBy_of_sound`, `OwnedFiles.not_bytesBelow_of_sound`.
-/
import QuotaWatch.Proofs.Source.Walk

namespace QuotaWatch

/-- Whether something is a regular file: no directory, link, pipe, socket or device. -/
def FileTree.isRegular [HasLength α] : FileTree α → Bool
  | .file _ content => (HasLength.length? content).isSome
  | _ => false

open FileTree

namespace OwnedFiles

variable [HasLength α] {fs : FileSystem α}

/-- **The bytes of an owner.** Where a path leads nowhere the answer is an error
with that path. From a directory on the walk ends, whatever links there are and
in whatever order entries come, and what it adds up are the regular files of the
owner, each once, whose paths are short enough. So a total that fits a word is
exact just where every file that counts has such a path. Anything else is its own
size, which is zero for a link, a pipe, a socket and a device. -/
theorem usedBy_of_sound (hsound : fs.tree.IsSound) (order : Listing) (path : String)
    (uid gid : UInt32) :
    (∀ fault, fs.find path = .error fault →
      usedBy .wrapping order fs uid gid path = .error (.io path fault.message)) ∧
    ∀ node, fs.find path = .ok node →
      (node.isDirectory = true →
        ∃ w, run .wrapping order fs uid gid node.count ⟨0, [path]⟩ = .ok w ∧ w.pending = []) ∧
      (node.isDirectory = false → node.isRegular = false →
        usedBy .wrapping order fs uid gid path = .ok 0) ∧
      ∃ used, usedBy .wrapping order fs uid gid path = .ok used ∧
        used = .ofNat (bytesOf uid gid (fs.reachedFrom path node)) ∧
        (bytesBelow uid gid node < 2 ^ 64 → (used.toNat = bytesBelow uid gid node ↔
          ∀ p ∈ node.places, p.2.ownedSize uid gid ≠ 0 →
            fs.fits (Path.below path p.1) = true)) := by
  refine ⟨fun fault hfind => by rw [usedBy, hfind], fun node hfind => ⟨?_, ?_, ?_⟩⟩
  · intro hdirectory
    obtain ⟨owner, entries, rfl⟩ := exists_of_isDirectory hdirectory
    obtain ⟨w, seen, hrun, hend, -, -⟩ := exists_usedBy .wrapping order uid gid hsound hfind
    exact ⟨w, hrun, hend⟩
  · intro hleaf hspecial
    have hzero : node.ownedSize uid gid = 0 := by
      cases node with
      | file _ _ => simp_all [isRegular, ownedSize]
      | link _ _ => rfl
      | directory _ _ => rfl
    rw [usedBy, hfind]
    simp [hleaf, hzero, Addition.wrapping]
  · have hused := usedBy_wrapping uid gid hsound order hfind
    rw [FileSystem.reached_eq hfind] at hused
    exact ⟨_, hused, rfl, toNat_reachedFrom_iff path⟩

/-- The home of a user: files of theirs at every depth, a link that leads up
again, a pipe and a file of somebody else. -/
def homeDirectory : FileTree Leaf :=
  .directory ⟨1000, 1000⟩ [
    ("a", .file ⟨1000, 1000⟩ (.regular 100)),
    ("nested", .directory ⟨1000, 1000⟩ [
      ("b", .file ⟨1000, 0⟩ (.regular 50)),
      ("deeper", .directory {} [
        ("c", .file ⟨0, 1000⟩ (.regular 25)),
        ("again", .link ⟨1000, 1000⟩ "..")])]),
    ("foreign", .file {} (.regular 7)),
    ("pipe", .file ⟨1000, 1000⟩ .special)]

def homes : FileSystem Leaf := { tree := .directory {} [("home", homeDirectory)] }

theorem isSound_homes : homes.tree.IsSound := by decide +kernel

theorem usedBy_of_sound_homes : homes.tree.IsSound ∧ homes.find "home" = .ok homeDirectory ∧
    (∃ w, run .wrapping .plain homes 1000 1000 homeDirectory.count ⟨0, ["home"]⟩ = .ok w ∧
      w.pending = []) ∧
    ∃ used, usedBy .wrapping .plain homes 1000 1000 "home" = .ok used ∧ used.toNat = 175 := by
  have hfind : homes.find "home" = .ok homeDirectory := rfl
  obtain ⟨hends, -, used, hused, -, hexact⟩ :=
    (usedBy_of_sound isSound_homes .plain "home" 1000 1000).2 homeDirectory hfind
  have hbelow : bytesBelow 1000 1000 homeDirectory = 175 := rfl
  have hfits : ∀ p ∈ homeDirectory.places, p.2.ownedSize 1000 1000 ≠ 0 →
      homes.fits (Path.below "home" p.1) = true := by decide +kernel
  have hall := (hexact (by rw [hbelow]; decide)).mpr hfits
  exact ⟨isSound_homes, hfind, hends rfl, used, hused, hall.trans hbelow⟩

/-! ### A file nested deeper than a path can say -/

/-- A name of as many bytes. -/
def longName (size : ℕ) : String := String.ofList (List.replicate size 'd')

/-- A file below as many directories of one name. -/
def nest (name : String) : ℕ → FileTree UInt64
  | 0 => .file {} 7
  | depth + 1 => .directory {} [(name, nest name depth)]

theorem size_longName : ∀ size : ℕ, (longName size).utf8ByteSize = size
  | 0 => rfl
  | size + 1 => by
    have ih := size_longName size
    unfold longName at ih ⊢
    rw [List.replicate_succ', String.ofList_append, String.utf8ByteSize_append, ih]
    rfl

theorem longName_ne {size : ℕ} {other : String} (h : other.utf8ByteSize < size) :
    longName size ≠ other := by
  rintro rfl
  rw [size_longName] at h
  exact lt_irrefl _ h

theorem isName_longName {size : ℕ} (hlong : 2 < size) (hshort : size ≤ maxName) :
    IsName (longName size) where
  ne_empty := longName_ne (lt_trans (by decide : "".utf8ByteSize < 2) hlong)
  ne_dot := longName_ne (lt_trans (by decide : ".".utf8ByteSize < 2) hlong)
  ne_dots := longName_ne hlong
  noSlash := by simp [longName]
  noZero := by simp [longName]
  short := by rwa [size_longName]

section Nest

variable {name : String} (hname : IsName name)

include hname in
theorem isSound_nest : ∀ depth : ℕ, (nest name depth).IsSound
  | 0 => .file _ _
  | depth + 1 => isSound_directory.mpr
    ⟨by simpa using hname, by simp, by simpa using isSound_nest depth⟩

theorem bytesBelow_nest (name : String) : ∀ depth : ℕ, bytesBelow 0 0 (nest name depth) = 7
  | 0 => rfl
  | depth + 1 => by
    have ih := bytesBelow_nest name depth
    simpa [bytesBelow, bytesOf, nest, places, placesIn, Function.comp_def, ownedSize] using ih

theorem mem_places_nest (name : String) : ∀ depth : ℕ,
    (List.replicate depth name, .file {} 7) ∈ (nest name depth).places
  | 0 => by simp [nest, places]
  | depth + 1 => by
    have ih := mem_places_nest name depth
    simpa [nest, places, placesIn, List.replicate_succ] using ih

include hname in
theorem size_below_nest (path : String) : ∀ depth : ℕ,
    depth * name.utf8ByteSize ≤ (Path.below path (List.replicate depth name)).utf8ByteSize
  | 0 => by simp
  | depth + 1 => by
    have ih := size_below_nest path depth
    have hjoin : (Path.below path (List.replicate depth name)).utf8ByteSize +
        name.utf8ByteSize ≤ _ := Path.size_add_le_join hname.head_ne
    rw [List.replicate_succ', Path.below, List.foldl_concat]
    unfold Path.below at ih hjoin
    rw [Nat.succ_mul]
    omega

end Nest

/-- Not every file below a path is added up: with directories that are nested
deep enough the path of a file is too long to be asked about. -/
theorem not_bytesBelow_of_sound : ¬ ∀ (fs : FileSystem UInt64) (order : Listing) (path : String)
    (uid gid : UInt32) (node : FileTree UInt64), fs.tree.IsSound → fs.find path = .ok node →
    bytesBelow uid gid node < 2 ^ 64 →
    ∃ used, usedBy .wrapping order fs uid gid path = .ok used ∧
      used.toNat = bytesBelow uid gid node := by
  intro h
  have hname : IsName (longName 250) := isName_longName (by decide) (by decide)
  have hsound := isSound_nest hname 17
  have hfind : ({ tree := nest (longName 250) 17 } : FileSystem UInt64).find "/" =
    .ok (nest (longName 250) 17) := rfl
  have hlt : bytesBelow 0 0 (nest (longName 250) 17) < 2 ^ 64 := by
    rw [bytesBelow_nest]
    decide
  obtain ⟨used, hused, hexact⟩ := h _ .plain "/" 0 0 _ hsound hfind hlt
  rw [usedBy_wrapping 0 0 hsound .plain hfind, FileSystem.reached_eq hfind,
    Except.ok.injEq] at hused
  rw [← hused, toNat_reachedFrom_iff "/" hlt] at hexact
  have hfits := hexact _ (mem_places_nest (longName 250) 17) (by decide)
  have hsize := size_below_nest hname "/" 17
  have hlong := Path.size_le_join "/" (Path.below "/" (List.replicate 17 (longName 250)))
  rw [size_longName] at hsize
  have hle := of_decide_eq_true hfits
  simp only [FileSystem.maxPath] at hle
  omega

end OwnedFiles

end QuotaWatch
