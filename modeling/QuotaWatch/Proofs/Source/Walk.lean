/-
# The walk below a directory

What a walk has to reach from a path is what stands there and below it at a path
that is short enough. A step lists one directory, and what it sees and what is
still to be reached then are together what was to be reached before. So a walk
ends, and it has seen everything it can reach, each place once, whatever links
there are and in whatever order entries come.

Key definitions: `FileTree.places`, `FileSystem.reached`, `OwnedFiles.Moves`,
`OwnedFiles.bytesOf`, `OwnedFiles.bytesBelow`.
Key theorems: `FileSystem.reached_directory`, `OwnedFiles.exists_step`,
`OwnedFiles.exists_run`, `OwnedFiles.exists_usedBy`, `OwnedFiles.usedBy_eq`,
`OwnedFiles.usedBy_wrapping`, `OwnedFiles.toNat_reachedFrom_iff`.
-/
import Mathlib.Algebra.BigOperators.Group.List.Basic
import Mathlib.Data.UInt
import QuotaWatch.Source.OwnedFiles
import QuotaWatch.Proofs.Source.Paths

namespace QuotaWatch

/-- The path of what is reached from a path by names. -/
def Path.below (path : String) (names : List String) : String := names.foldl join path

namespace FileTree

mutual

/-- Everything in a tree, with the names that lead there from its top. -/
def places : FileTree α → List (List String × FileTree α)
  | .file owner content => [([], .file owner content)]
  | .link owner target => [([], .link owner target)]
  | .directory owner entries => ([], .directory owner entries) :: placesIn entries

/-- Everything in the entries of a directory, with the names that lead there. -/
def placesIn : List (String × FileTree α) → List (List String × FileTree α)
  | [] => []
  | (name, node) :: rest => node.places.map (fun p => (name :: p.1, p.2)) ++ placesIn rest

end

mutual

theorem length_places : ∀ node : FileTree α, node.places.length = node.count
  | .file _ _ => rfl
  | .link _ _ => rfl
  | .directory _ entries => by
    rw [places, count, List.length_cons, length_placesIn entries]

theorem length_placesIn : ∀ entries : List (String × FileTree α),
    (placesIn entries).length = countEntries entries
  | [] => rfl
  | (_, node) :: rest => by
    rw [placesIn, countEntries, List.length_append, List.length_map, length_places node,
      length_placesIn rest]

end

theorem placesIn_eq : ∀ entries : List (String × FileTree α),
    placesIn entries = entries.flatMap fun e => e.2.places.map fun p => (e.1 :: p.1, p.2)
  | [] => rfl
  | (name, node) :: rest => by rw [placesIn, List.flatMap_cons, placesIn_eq rest]

theorem exists_of_isDirectory {node : FileTree α} (h : node.isDirectory = true) :
    ∃ owner entries, node = .directory owner entries := by
  cases node with
  | directory owner entries => exact ⟨owner, entries, rfl⟩
  | file _ _ => simp [isDirectory] at h
  | link _ _ => simp [isDirectory] at h

end FileTree

open FileTree
open scoped List

/-! ### What can be reached -/

namespace FileSystem

variable {fs : FileSystem α} {path name : String} {node : FileTree α} {owner : Owner}
  {entries : List (String × FileTree α)}

/-- What stands at a place or below it at a path that is short enough. -/
def reachedFrom (fs : FileSystem α) (path : String) (node : FileTree α) : List (FileTree α) :=
  (node.places.filter fun p => fs.fits (Path.below path p.1)).map (·.2)

/-- What stands at a path or below it at a path that is short enough. -/
def reached (fs : FileSystem α) (path : String) : List (FileTree α) :=
  match fs.find path with
  | .ok node => fs.reachedFrom path node
  | .error _ => []

theorem reached_eq (h : fs.find path = .ok node) : fs.reached path = fs.reachedFrom path node := by
  rw [reached, h]

theorem reachedFrom_leaf (hleaf : node.isDirectory = false) (hfits : fs.fits path = true) :
    fs.reachedFrom path node = [node] := by
  cases node with
  | directory _ _ => simp [isDirectory] at hleaf
  | file _ _ => simp [reachedFrom, places, Path.below, hfits]
  | link _ _ => simp [reachedFrom, places, Path.below, hfits]

theorem reachedFrom_entries (fs : FileSystem α) (path : String) :
    fs.reachedFrom path (.directory owner entries) =
      (if fs.fits path then [.directory owner entries] else []) ++
        entries.flatMap fun e => fs.reachedFrom (Path.join path e.1) e.2 := by
  have hentries : ((placesIn entries).filter fun p => fs.fits (Path.below path p.1)).map (·.2) =
      entries.flatMap fun e => fs.reachedFrom (Path.join path e.1) e.2 := by
    rw [placesIn_eq, List.filter_flatMap, List.map_flatMap]
    congr 1
    funext e
    rw [List.filter_map, List.map_map]
    rfl
  have hself : Path.below path [] = path := rfl
  rw [reachedFrom, places, List.filter_cons, ← hentries]
  split
  · next h => rw [if_pos (by simpa [hself] using h), List.map_cons, List.singleton_append]
  · next h => rw [if_neg (by simpa [hself] using h), List.nil_append]

/-- What is below a path that is too long is at paths that are too long. -/
theorem fits_of_fits_join (hpath : path ≠ "") (hname : IsName name)
    (h : fs.fits (Path.join path name) = true) : fs.fits path = true := by
  have hhead := hname.head_ne
  have hsize : (Path.join fs.base path).utf8ByteSize + name.utf8ByteSize ≤ _ :=
    Path.size_add_le_join hhead
  unfold fits at h ⊢
  rw [Path.join_join hpath hhead] at h
  simp only [decide_eq_true_eq] at h ⊢
  omega

theorem reachedFrom_eq_nil (hsound : node.IsSound) : ∀ {path : String}, path ≠ "" →
    fs.fits path = false → fs.reachedFrom path node = [] := by
  induction hsound with
  | file _ _ => intro path _ hlong; simp [reachedFrom, places, Path.below, hlong]
  | link _ _ => intro path _ hlong; simp [reachedFrom, places, Path.below, hlong]
  | directory owner names _ _ ih =>
    intro path hpath hlong
    rw [reachedFrom_entries, if_neg (by simp [hlong]), List.nil_append, List.flatMap_eq_nil_iff]
    intro e he
    refine ih e he (Path.join_ne_empty (names e he).ne_empty) ?_
    by_contra h
    have hfits := fits_of_fits_join hpath (names e he) (by simpa using h)
    simp [hlong] at hfits

/-- From an entry of a directory on, what is reached is what stands there. -/
theorem reached_join (hsound : fs.tree.IsSound) (h : fs.find path = .ok (.directory owner entries))
    (hmem : (name, node) ∈ entries) :
    fs.reached (Path.join path name) = fs.reachedFrom (Path.join path name) node := by
  have hdirectory := find_sound hsound h
  rw [reached, find_join hsound h hmem]
  by_cases hfits : fs.fits (Path.join path name)
  · rw [if_pos hfits]
  · have hne : Path.join path name ≠ "" :=
      Path.join_ne_empty (hdirectory.isName hmem).ne_empty
    rw [if_neg hfits, reachedFrom_eq_nil (hdirectory.entry hmem) hne (by simpa using hfits)]

/-- What is reached from a directory is itself and what is reached by its names. -/
theorem reached_directory (hsound : fs.tree.IsSound)
    (h : fs.find path = .ok (.directory owner entries)) :
    fs.reached path = .directory owner entries ::
      (entries.map (·.1)).flatMap fun name => fs.reached (Path.join path name) := by
  obtain ⟨spot, hspot, -⟩ := find_eq_ok.mp h
  obtain ⟨-, -, hfits, -⟩ := resolve_eq_ok.mp hspot
  rw [reached_eq h, reachedFrom_entries, if_pos hfits, List.singleton_append, List.flatMap_map]
  congr 1
  exact List.flatMap_congr fun e he => (reached_join hsound h he).symm

theorem reached_error {fault : IoFault} (h : fs.find path = .error fault) :
    fs.reached path = [] := by
  rw [reached, h]

theorem reached_leaf (h : fs.find path = .ok node) (hleaf : node.isDirectory = false) :
    fs.reached path = [node] := by
  obtain ⟨spot, hspot, -⟩ := find_eq_ok.mp h
  obtain ⟨-, -, hfits, -⟩ := resolve_eq_ok.mp hspot
  rw [reached_eq h, reachedFrom_leaf hleaf hfits]

theorem length_reached_le (h : fs.find path = .ok node) :
    (fs.reached path).length ≤ node.count := by
  rw [reached_eq h, ← length_places, reachedFrom, List.length_map]
  exact List.length_filter_le _ _

theorem names_directory (h : fs.find path = .ok (.directory owner entries)) :
    fs.names path = .ok (entries.map (·.1)) := by
  rw [names, findThrough_of_find h rfl]
  rfl

end FileSystem

namespace OwnedFiles

variable [HasLength α] {N : Type} (sums : Addition N) (order : Listing) (fs : FileSystem α)
  (uid gid : UInt32)

/-- The sizes that are added up for what was seen, in that order. -/
def sizes (seen : List (FileTree α)) : List UInt64 :=
  (seen.filter (!·.isDirectory)).map (ownedSize uid gid)

/-- From one state of a walk to another: what was `seen` between them is added
up, and with what is still pending it is what was pending and what was `due`. -/
structure Moves (due : List (FileTree α)) (w w' : Walk N) (seen : List (FileTree α)) : Prop where
  total : w'.total = (sizes uid gid seen).foldl sums.add w.total
  places : (seen ++ w'.pending.flatMap fs.reached).Perm (due ++ w.pending.flatMap fs.reached)

section Moves

variable {sums fs uid gid} {due due' seen seen' : List (FileTree α)} {w w' w'' : Walk N}

theorem Moves.refl (w : Walk N) : Moves sums fs uid gid [] w w [] := ⟨rfl, .rfl⟩

theorem Moves.trans (h : Moves sums fs uid gid due w w' seen)
    (h' : Moves sums fs uid gid due' w' w'' seen') :
    Moves sums fs uid gid (due ++ due') w w'' (seen ++ seen') where
  total := by
    rw [h'.total, h.total, sizes, sizes, sizes, List.filter_append, List.map_append,
      List.foldl_append]
  places := by
    rw [List.append_assoc, List.append_assoc]
    calc seen ++ (seen' ++ w''.pending.flatMap fs.reached)
      _ ~ seen ++ (due' ++ w'.pending.flatMap fs.reached) := h'.places.append_left _
      _ ~ due' ++ (seen ++ w'.pending.flatMap fs.reached) := List.perm_append_comm_assoc _ _ _
      _ ~ due' ++ (due ++ w.pending.flatMap fs.reached) := h.places.append_left _
      _ ~ due ++ (due' ++ w.pending.flatMap fs.reached) := List.perm_append_comm_assoc _ _ _

/-- What is due may come in any order. -/
theorem Moves.perm (h : Moves sums fs uid gid due w w' seen) (hdue : due ~ due') :
    Moves sums fs uid gid due' w w' seen :=
  ⟨h.total, h.places.trans (hdue.append_right _)⟩

/-- What looking at an entry does. -/
theorem visit_cases (sums : Addition N) (fs : FileSystem α) (uid gid : UInt32)
    (directory : String) (w : Walk N) (name : String) :
    (∃ fault, fs.find (Path.join directory name) = .error fault ∧
      visit sums fs uid gid directory w name = w) ∨
    (∃ owner entries, fs.find (Path.join directory name) = .ok (.directory owner entries) ∧
      visit sums fs uid gid directory w name =
        ⟨w.total, Path.join directory name :: w.pending⟩) ∨
    ∃ node, fs.find (Path.join directory name) = .ok node ∧ node.isDirectory = false ∧
      visit sums fs uid gid directory w name =
        ⟨sums.add w.total (node.ownedSize uid gid), w.pending⟩ := by
  unfold visit
  simp only
  cases fs.find (Path.join directory name) with
  | error fault => exact .inl ⟨fault, rfl, rfl⟩
  | ok node =>
    cases node with
    | directory owner entries => exact .inr (.inl ⟨owner, entries, rfl, rfl⟩)
    | file owner content => exact .inr (.inr ⟨_, rfl, rfl, rfl⟩)
    | link owner target => exact .inr (.inr ⟨_, rfl, rfl, rfl⟩)

/-- An entry is looked at: it is added up or still to be listed. -/
theorem moves_visit (sums : Addition N) (fs : FileSystem α) (uid gid : UInt32) (directory : String)
    (w : Walk N) (name : String) :
    ∃ seen, Moves sums fs uid gid (fs.reached (Path.join directory name)) w
      (visit sums fs uid gid directory w name) seen := by
  rcases visit_cases sums fs uid gid directory w name with
    ⟨fault, hfind, hvisit⟩ | ⟨owner, entries, hfind, hvisit⟩ | ⟨node, hfind, hleaf, hvisit⟩
  · rw [hvisit, FileSystem.reached_error hfind]
    exact ⟨[], .refl w⟩
  · rw [hvisit]
    exact ⟨[], rfl, .rfl⟩
  · rw [hvisit, FileSystem.reached_leaf hfind hleaf]
    exact ⟨[node], by simp [sizes, hleaf], .rfl⟩

/-- The names of a directory are looked at one after the other. -/
theorem moves_visits (sums : Addition N) (fs : FileSystem α) (uid gid : UInt32)
    (directory : String) : ∀ (names : List String) (w : Walk N),
    ∃ seen, Moves sums fs uid gid (names.flatMap fun name => fs.reached (Path.join directory name))
      w (names.foldl (visit sums fs uid gid directory) w) seen
  | [], w => ⟨[], .refl w⟩
  | name :: names, w => by
    obtain ⟨seen, hseen⟩ := moves_visit sums fs uid gid directory w name
    obtain ⟨others, hothers⟩ := moves_visits sums fs uid gid directory names
      (visit sums fs uid gid directory w name)
    exact ⟨seen ++ others, hseen.trans hothers⟩

/-- Every path still to be listed leads to a directory. -/
def Listable (fs : FileSystem α) (w : Walk N) : Prop :=
  ∀ path ∈ w.pending, ∃ owner entries, fs.find path = .ok (.directory owner entries)

theorem Listable.visit (h : Listable fs w) (directory name : String) :
    Listable fs (visit sums fs uid gid directory w name) := by
  rcases visit_cases sums fs uid gid directory w name with
    ⟨fault, hfind, hvisit⟩ | ⟨owner, entries, hfind, hvisit⟩ | ⟨node, hfind, hleaf, hvisit⟩
  · rw [hvisit]
    exact h
  · rw [hvisit]
    exact List.forall_mem_cons.mpr ⟨⟨owner, entries, hfind⟩, h⟩
  · rw [hvisit]
    exact h

theorem Listable.visits (directory : String) : ∀ {w : Walk N} (names : List String),
    Listable fs w → Listable fs (names.foldl (OwnedFiles.visit sums fs uid gid directory) w)
  | _, [], h => h
  | _, name :: names, h => Listable.visits directory names (h.visit directory name)

/-- **A step lists one directory**, and sees it besides what it adds up. -/
theorem exists_step (sums : Addition N) (order : Listing) (uid gid : UInt32)
    (hsound : fs.tree.IsSound) (hw : Listable fs w) (hne : w.pending ≠ []) :
    ∃ w' seen, step sums order fs uid gid w = .ok w' ∧ Listable fs w' ∧
      Moves sums fs uid gid [] w w' seen ∧ seen ≠ [] := by
  obtain ⟨total, pending⟩ := w
  obtain ⟨directory, rest, rfl⟩ := List.exists_cons_of_ne_nil hne
  obtain ⟨⟨owner, entries, hfind⟩, hrest⟩ := List.forall_mem_cons.mp hw
  have hnames := FileSystem.names_directory hfind
  have hperm := order.perm directory (entries.map (·.1))
  have hlistable : Listable fs (⟨total, rest⟩ : Walk N) := hrest
  obtain ⟨seen, hseen⟩ := moves_visits sums fs uid gid directory
    (order.arrange directory (entries.map (·.1))) ⟨total, rest⟩
  refine ⟨_, .directory owner entries :: seen, by simp only [step, hnames],
    hlistable.visits directory _, ⟨hseen.total, ?_⟩, List.cons_ne_nil _ _⟩
  rw [List.nil_append, List.flatMap_cons, FileSystem.reached_directory hsound hfind]
  exact ((hseen.perm (hperm.flatMap_right _)).places).cons _

/-- **A walk ends**, and has seen everything that was pending. Every step sees
something, so what can still be reached bounds the steps. -/
theorem exists_run (sums : Addition N) (order : Listing) (uid gid : UInt32)
    (hsound : fs.tree.IsSound) : ∀ {fuel : ℕ} {w : Walk N}, Listable fs w →
    (w.pending.flatMap fs.reached).length ≤ fuel →
    ∃ w' seen, run sums order fs uid gid fuel w = .ok w' ∧ w'.pending = [] ∧
      Moves sums fs uid gid [] w w' seen
  | fuel, ⟨total, []⟩, _, _ => ⟨⟨total, []⟩, [], by cases fuel <;> rfl, rfl, .refl _⟩
  | 0, ⟨total, path :: pending⟩, hw, hfuel => by
    -- nothing is left to be seen, but a step would see the directory
    obtain ⟨w', seen, -, -, hmoves, hseen⟩ :=
      exists_step sums order uid gid hsound hw (List.cons_ne_nil _ _)
    have hlength := hmoves.places.length_eq
    have hpos := List.length_pos_iff.mpr hseen
    simp only [List.length_append, List.length_nil] at hlength hfuel
    omega
  | fuel + 1, ⟨total, path :: pending⟩, hw, hfuel => by
    obtain ⟨w', seen, hstep, hw', hmoves, hseen⟩ :=
      exists_step sums order uid gid hsound hw (List.cons_ne_nil _ _)
    have hlength := hmoves.places.length_eq
    have hpos := List.length_pos_iff.mpr hseen
    simp only [List.length_append, List.length_nil] at hlength hfuel
    obtain ⟨last, others, hrun, hend, hrest⟩ :=
      exists_run sums order uid gid hsound hw' (by omega : _ ≤ fuel)
    refine ⟨last, seen ++ others, ?_, hend, hmoves.trans hrest⟩
    simp only [run, hstep, hrun]

end Moves

/-! ### What a walk adds up -/

/-- The bytes of an owner among files, links and directories. -/
def bytesOf (nodes : List (FileTree α)) : ℕ :=
  (nodes.map fun node => (node.ownedSize uid gid).toNat).sum

/-- The bytes of an owner at a place and below it. -/
def bytesBelow (node : FileTree α) : ℕ := bytesOf uid gid (node.places.map (·.2))

section Bytes

variable {sums fs uid gid} {path : String} {node : FileTree α} {nodes nodes' : List (FileTree α)}

theorem bytesOf_append (nodes nodes' : List (FileTree α)) :
    bytesOf uid gid (nodes ++ nodes') = bytesOf uid gid nodes + bytesOf uid gid nodes' := by
  rw [bytesOf, List.map_append, List.sum_append]
  rfl

theorem bytesOf_perm (h : nodes ~ nodes') : bytesOf uid gid nodes = bytesOf uid gid nodes' :=
  (h.map _).sum_eq

/-- Directories have no size. -/
theorem sum_sizes (uid gid : UInt32) : ∀ nodes : List (FileTree α),
    ((sizes uid gid nodes).map (·.toNat)).sum = bytesOf uid gid nodes
  | [] => rfl
  | node :: nodes => by
    have ih := sum_sizes uid gid nodes
    unfold sizes bytesOf at ih ⊢
    rw [List.filter_cons, List.map_cons, List.sum_cons, ← ih]
    by_cases hdirectory : node.isDirectory
    · obtain ⟨owner, entries, rfl⟩ := exists_of_isDirectory hdirectory
      simp [hdirectory, ownedSize]
    · simp [hdirectory]

theorem foldl_wrapping : ∀ (amounts : List UInt64) (total : UInt64),
    amounts.foldl Addition.wrapping.add total = total + .ofNat (amounts.map (·.toNat)).sum
  | [], total => by simp
  | amount :: amounts, total => by
    rw [List.foldl_cons, foldl_wrapping amounts, List.map_cons, List.sum_cons, UInt64.ofNat_add,
      UInt64.ofNat_toNat, ← UInt64.add_assoc]
    rfl

/-- The walk below a directory ends, and adds up everything it can reach once. -/
theorem exists_usedBy (sums : Addition N) (order : Listing) (uid gid : UInt32)
    (hsound : fs.tree.IsSound) {owner : Owner} {entries : List (String × FileTree α)}
    (hfind : fs.find path = .ok (.directory owner entries)) :
    ∃ w seen, run sums order fs uid gid (FileTree.directory owner entries).count
        ⟨sums.of 0, [path]⟩ = .ok w ∧ w.pending = [] ∧ seen ~ fs.reached path ∧
      w.total = (sizes uid gid seen).foldl sums.add (sums.of 0) := by
  have hstart : Listable fs (⟨sums.of 0, [path]⟩ : Walk N) := by
    intro p hp
    obtain rfl := List.mem_singleton.mp hp
    exact ⟨owner, entries, hfind⟩
  have hfuel : (([path]).flatMap fs.reached).length ≤ (FileTree.directory owner entries).count := by
    rw [List.flatMap_singleton]
    exact FileSystem.length_reached_le hfind
  obtain ⟨w, seen, hrun, hend, hmoves⟩ := exists_run sums order uid gid hsound hstart hfuel
  refine ⟨w, seen, hrun, hend, ?_, hmoves.total⟩
  have hplaces := hmoves.places
  rw [hend, List.flatMap_nil, List.append_nil, List.nil_append, List.flatMap_singleton] at hplaces
  exact hplaces

/-- What is used is what was seen, added up in some order. -/
theorem usedBy_eq {sums : Addition N} (hzero : ∀ size, sums.add (sums.of 0) size = sums.of size)
    (order : Listing) (uid gid : UInt32) (hsound : fs.tree.IsSound)
    (hfind : fs.find path = .ok node) :
    ∃ seen, seen ~ fs.reached path ∧ usedBy sums order fs uid gid path =
      .ok ((sizes uid gid seen).foldl sums.add (sums.of 0)) := by
  by_cases hdirectory : node.isDirectory
  · obtain ⟨owner, entries, rfl⟩ := exists_of_isDirectory hdirectory
    obtain ⟨w, seen, hrun, -, hseen, htotal⟩ := exists_usedBy sums order uid gid hsound hfind
    refine ⟨seen, hseen, ?_⟩
    rw [usedBy, hfind]
    simp only [hdirectory, if_true, hrun, Except.map, htotal]
  · have hleaf : node.isDirectory = false := by simpa using hdirectory
    refine ⟨[node], by rw [FileSystem.reached_leaf hfind hleaf], ?_⟩
    rw [usedBy, hfind]
    simp [hleaf, sizes, hzero]

theorem usedBy_wrapping (uid gid : UInt32) (hsound : fs.tree.IsSound) (order : Listing)
    (hfind : fs.find path = .ok node) :
    usedBy .wrapping order fs uid gid path =
      .ok (.ofNat (bytesOf uid gid (fs.reached path))) := by
  have hzero (size : UInt64) :
      Addition.wrapping.add (Addition.wrapping.of 0) size = Addition.wrapping.of size :=
    UInt64.zero_add size
  obtain ⟨seen, hseen, hused⟩ := usedBy_eq hzero order uid gid hsound hfind
  rw [hused, foldl_wrapping, sum_sizes, bytesOf_perm hseen, Except.ok.injEq]
  exact UInt64.zero_add _

/-- What is below a place is reached or is at a path that is too long. -/
theorem bytesOf_reachedFrom_add (path : String) :
    bytesOf uid gid (fs.reachedFrom path node) +
        bytesOf uid gid ((node.places.filter fun p => !fs.fits (Path.below path p.1)).map (·.2)) =
      bytesBelow uid gid node := by
  have hsplit := List.sum_map_filter_add_sum_map_filter_not
    (fun p => fs.fits (Path.below path p.1) = true)
    (fun p : List String × FileTree α => (p.2.ownedSize uid gid).toNat) node.places
  simpa [bytesBelow, bytesOf, FileSystem.reachedFrom, Function.comp_def] using hsplit

/-- Everything is added up just where what has bytes of the owner is at paths
that are short enough. -/
theorem bytesOf_reachedFrom_iff (path : String) :
    bytesOf uid gid (fs.reachedFrom path node) = bytesBelow uid gid node ↔
      ∀ p ∈ node.places, p.2.ownedSize uid gid ≠ 0 → fs.fits (Path.below path p.1) = true := by
  rw [← bytesOf_reachedFrom_add path, left_eq_add, bytesOf, List.map_map,
    List.sum_eq_zero_iff_forall_eq_nat, List.forall_mem_map]
  constructor
  · intro h p hp hsize
    by_contra hlong
    have hzero := h p (List.mem_filter.mpr ⟨hp, by simpa using hlong⟩)
    exact hsize (UInt64.toNat_inj.mp hzero)
  · intro h p hp
    obtain ⟨hp, hlong⟩ := List.mem_filter.mp hp
    by_contra hsize
    have hne : p.2.ownedSize uid gid ≠ 0 := fun e => hsize (congrArg UInt64.toNat e)
    simp [h p hp hne] at hlong

/-- A total that fits a word is exact under the same condition. -/
theorem toNat_reachedFrom_iff (path : String) (hlt : bytesBelow uid gid node < 2 ^ 64) :
    (UInt64.ofNat (bytesOf uid gid (fs.reachedFrom path node))).toNat = bytesBelow uid gid node ↔
      ∀ p ∈ node.places, p.2.ownedSize uid gid ≠ 0 → fs.fits (Path.below path p.1) = true := by
  have hall : bytesOf uid gid (fs.reachedFrom path node) + _ = bytesBelow uid gid node :=
    bytesOf_reachedFrom_add path
  have hword : bytesOf uid gid (fs.reachedFrom path node) < UInt64.size :=
    lt_of_le_of_lt (hall ▸ Nat.le_add_right _ _) hlt
  rw [UInt64.toNat_ofNat_of_lt' hword, bytesOf_reachedFrom_iff]

end Bytes

end OwnedFiles

end QuotaWatch
