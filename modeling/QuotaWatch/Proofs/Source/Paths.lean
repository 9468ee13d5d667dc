/-
# Following a path

A path is followed one piece after the other, and what the pieces in front lead
to does not depend on those behind. So the path of a directory and the name of
an entry lead to that entry, however the path came to the directory: through
links, over single and double dots, with or without a slash at its end. Only the
length of the whole path can keep it from being found.

Key definitions: `FileTree.IsName`, `FileTree.IsSound`, `FileTree.Spot.IsSound`,
`FileSystem.fits`.
Key theorems: `Path.pieces_join`, `FileTree.follow_append`, `FileTree.follow_behind`,
`FileTree.follow_sound`, `FileTree.follow_join`, `FileSystem.find_sound`, `FileSystem.find_join`.
-/
import QuotaWatch.Source.FileSystem

namespace QuotaWatch

namespace Path

theorem pieces_ne_nil : ∀ cs : List Char, pieces cs ≠ []
  | [] => by simp [pieces]
  | c :: cs => by
    unfold pieces
    split
    all_goals grind

/-- A slash separates the pieces before it from those behind it. -/
theorem pieces_append_slash (qs : List Char) : ∀ cs : List Char,
    pieces (cs ++ '/' :: qs) = pieces cs ++ pieces qs
  | [] => by simp [pieces]
  | c :: cs => by
    have ih := pieces_append_slash qs cs
    by_cases hc : c = '/'
    · subst hc
      simp [pieces, ih]
    · obtain ⟨first, others, hcs⟩ := List.exists_cons_of_ne_nil (pieces_ne_nil cs)
      simp [pieces, ih, hcs]

/-- A text without slashes is one piece. -/
theorem pieces_eq_self : ∀ {cs : List Char}, '/' ∉ cs → pieces cs = [cs]
  | [], _ => rfl
  | c :: cs, h => by
    obtain ⟨hc, hcs⟩ := not_or.mp (mt List.mem_cons.mpr h)
    simp [pieces, Ne.symm hc, pieces_eq_self hcs]

/-- Whether a name goes right behind a text: it is empty or ends in a slash. -/
def isOpen (root : String) : Bool := root.isEmpty || root.toList.getLast? == some '/'

theorem join_of_ne {root name : String} (h : name.toList.head? ≠ some '/') :
    join root name = if isOpen root then root ++ name else root ++ "/" ++ name := by
  unfold join isOpen
  split
  · simp_all
  · rfl

theorem join_ne_empty {root name : String} (h : name ≠ "") : join root name ≠ "" := by
  unfold join
  split
  · exact h
  · split <;> simp [h]

/-- A path below another one is longer by the name at least. -/
theorem size_add_le_join {root name : String} (h : name.toList.head? ≠ some '/') :
    root.utf8ByteSize + name.utf8ByteSize ≤ (join root name).utf8ByteSize := by
  rw [join_of_ne h]
  split
  all_goals
    simp only [String.utf8ByteSize_append]
    omega

theorem size_le_join (root path : String) : path.utf8ByteSize ≤ (join root path).utf8ByteSize := by
  unfold join
  split
  · exact Nat.le_refl _
  · split
    all_goals
      simp only [String.utf8ByteSize_append]
      omega

/-- A name below a path takes the place of an empty piece at its end, if there
is one. -/
theorem pieces_join (root : String) {name : String} (h : '/' ∉ name.toList) :
    ∃ ps tail, (tail = [] ∨ tail = [[]]) ∧ pieces root.toList = ps ++ tail ∧
      pieces (join root name).toList = ps ++ [name.toList] := by
  have hhead : name.toList.head? ≠ some '/' := fun e => h (List.mem_of_mem_head? e)
  rw [join_of_ne hhead]
  by_cases hopen : isOpen root
  · rw [if_pos hopen, String.toList_append]
    rcases Bool.or_eq_true_iff.mp hopen with hempty | hlast
    · have hroot : root = "" := by simpa using hempty
      subst hroot
      exact ⟨[], [[]], .inr rfl, rfl, pieces_eq_self h⟩
    · obtain ⟨cs, hcs⟩ := List.getLast?_eq_some_iff.mp (by simpa using hlast)
      refine ⟨pieces cs, [[]], .inr rfl, ?_, ?_⟩
      · rw [hcs, pieces_append_slash, pieces]
      · rw [hcs, List.append_assoc, List.singleton_append, pieces_append_slash, pieces_eq_self h]
  · rw [if_neg hopen, String.toList_append, String.toList_append]
    refine ⟨pieces root.toList, [], .inl rfl, (List.append_nil _).symm, ?_⟩
    have hslash : "/".toList = ['/'] := rfl
    rw [List.append_assoc, hslash, List.singleton_append, pieces_append_slash, pieces_eq_self h]

theorem isOpen_append {root path : String} (h : path ≠ "") :
    isOpen (root ++ path) = isOpen path := by
  have hpath : path.toList ≠ [] := by simpa using h
  have hlast : (root.toList ++ path.toList).getLast? = path.toList.getLast? := by
    rw [List.getLast?_append, List.getLast?_eq_some_getLast hpath, Option.some_or]
  have hfull : (root ++ path).isEmpty = false := by simp [h]
  have hself : path.isEmpty = false := by simp [h]
  rw [isOpen, isOpen, hfull, hself, String.toList_append, hlast]

/-- Names go below a path from the top as they go below the path itself. -/
theorem join_join {base path name : String} (hpath : path ≠ "")
    (h : name.toList.head? ≠ some '/') :
    join base (join path name) = join (join base path) name := by
  have hne : path.toList ≠ [] := by simpa using hpath
  by_cases hroot : path.toList.head? = some '/'
  · have hstay : ∀ {p : String}, p.toList.head? = some '/' → join base p = p := by
      intro p hp
      obtain ⟨cs, hcs⟩ := List.head?_eq_some_iff.mp hp
      simp [join, hcs]
    have hjoin : (join path name).toList.head? = some '/' := by
      rw [join_of_ne h]
      split <;> simp [List.head?_append, hroot]
    rw [hstay hjoin, hstay hroot]
  · have hjoin : (join path name).toList.head? ≠ some '/' := by
      rw [join_of_ne h]
      split <;> simpa [List.head?_append, List.head?_eq_some_head hne] using hroot
    rw [join_of_ne hjoin, join_of_ne hroot, join_of_ne h, join_of_ne h, apply_ite isOpen,
      isOpen_append hpath, isOpen_append hpath, ite_self]
    by_cases hbase : isOpen base <;> by_cases hopen : isOpen path
    all_goals simp [hbase, hopen, String.append_assoc]

end Path

namespace FileTree

def isLink : FileTree α → Bool
  | .link _ _ => true
  | _ => false

variable {m m' : Manner} {fuel links links' : Nat} {s s' t : Spot α} {piece : List Char}
  {last : Bool} {ps more : List (List Char)}

/-- Before the end of a path the manner does not matter. -/
theorem hop_inner (h : m.makes = m'.makes) :
    hop m links s piece false = hop m' links s piece false := by
  simp only [hop, Bool.false_and, h]

theorem hop_through (h : m.throughLast = true) :
    hop m links s piece last = hop m links s piece false := by
  simp only [hop, h, Bool.not_true, Bool.and_false]

/-- A link that is not followed ends the path. -/
theorem hop_cases (h : hop {} links s piece last = .ok (links', s', more)) :
    hop { throughLast := true } links s piece last = .ok (links', s', more) ∨
      last = true ∧ s'.node.isLink = true ∧ more = [] := by
  cases last with
  | false => exact .inl (hop_inner rfl ▸ h)
  | true =>
    unfold hop at h ⊢
    grind [isLink, Spot.down]

theorem follow_of_hop (h : hop m links s piece ps.isEmpty = .ok (links', s', more)) :
    follow m (fuel + 1) links s (piece :: ps) = follow m fuel links' s' (more ++ ps) := by
  rw [follow, h]

theorem exists_hop (h : follow m (fuel + 1) links s (piece :: ps) = .ok t) :
    ∃ links' s' more, hop m links s piece ps.isEmpty = .ok (links', s', more) ∧
      follow m fuel links' s' (more ++ ps) = .ok t := by
  cases hhop : hop m links s piece ps.isEmpty with
  | error fault => simp [follow, hhop] at h
  | ok r => exact ⟨r.1, r.2.1, r.2.2, rfl, follow_of_hop hhop ▸ h⟩

/-- What a path leads to without links at its end, it leads to through links. -/
theorem follow_through : ∀ {fuel links : Nat} {s : Spot α} {ps : List (List Char)},
    follow {} fuel links s ps = .ok t → t.node.isLink = false →
    follow { throughLast := true } fuel links s ps = .ok t
  | _, _, _, [], h, _ => by simpa [follow] using h
  | 0, _, _, _ :: _, h, _ => by simp [follow] at h
  | fuel + 1, links, s, piece :: ps, h, hlink => by
    obtain ⟨links', s', more, hhop, hrest⟩ := exists_hop h
    rcases hop_cases hhop with hsame | ⟨hlast, hs', hmore⟩
    · rw [follow_of_hop hsame]
      exact follow_through hrest hlink
    · rw [List.isEmpty_iff.mp hlast, hmore, List.append_nil, follow, Except.ok.injEq] at hrest
      rw [← hrest, hs'] at hlink
      contradiction

/-- **A path is followed piece after piece**: what the pieces in front lead to
does not depend on those behind. -/
theorem follow_append {qs : List (List Char)} :
    ∀ {fuel links : Nat} {s : Spot α} {ps : List (List Char)},
    follow { throughLast := true } fuel links s (ps ++ qs) = .ok t →
    ∃ fuel' links' s', follow { throughLast := true } fuel' links' s' qs = .ok t ∧
      ∀ {m : Manner}, m.makes = false → ∀ k {qs' : List (List Char)}, qs' ≠ [] →
        follow m (fuel + k) links s (ps ++ qs') = follow m (fuel' + k) links' s' qs'
  | fuel, links, s, [], h => ⟨fuel, links, s, h, fun _ _ _ _ => rfl⟩
  | 0, _, _, _ :: _, h => by simp [follow] at h
  | fuel + 1, links, s, piece :: ps, h => by
    rw [List.cons_append] at h
    obtain ⟨links₁, s₁, more, hhop, hrest⟩ := exists_hop h
    rw [← List.append_assoc] at hrest
    obtain ⟨fuel', links', s', hqs, hbehind⟩ := follow_append hrest
    refine ⟨fuel', links', s', hqs, fun {m} hmakes k qs' hne => ?_⟩
    have hlast : (ps ++ qs').isEmpty = false := by simp [hne]
    have hinner : hop m links s piece false = hop { throughLast := true } links s piece false :=
      hop_inner hmakes
    have hhop' : hop m links s piece (ps ++ qs').isEmpty = .ok (links₁, s₁, more) := by
      rw [hlast, hinner, ← hop_through rfl, hhop]
    rw [List.cons_append, Nat.add_right_comm, follow_of_hop hhop', ← List.append_assoc]
    exact hbehind hmakes k hne

/-- Behind a directory an empty piece changes nothing. -/
theorem follow_nil_piece (h : follow m fuel links s [[]] = .ok t) :
    s = t ∧ 0 < fuel := by
  cases fuel with
  | zero => simp [follow] at h
  | succ fuel =>
    obtain ⟨links', s', more, hhop, hrest⟩ := exists_hop h
    obtain ⟨owner, entries, hnode⟩ : ∃ owner entries, s.node = .directory owner entries := by
      unfold hop at hhop
      grind
    simp only [hop, hnode] at hhop
    simp at hhop
    obtain ⟨-, rfl, rfl⟩ := hhop
    simpa [follow] using hrest

/-! ### Trees that can stand on a disk -/

/-- A name that something in a directory can have. -/
structure IsName (name : String) : Prop where
  ne_empty : name ≠ ""
  ne_dot : name ≠ "."
  ne_dots : name ≠ ".."
  noSlash : '/' ∉ name.toList
  noZero : '\x00' ∉ name.toList
  short : name.utf8ByteSize ≤ maxName

theorem IsName.head_ne {name : String} (h : IsName name) : name.toList.head? ≠ some '/' :=
  fun e => h.noSlash (List.mem_of_mem_head? e)

/-- Everything in a directory has a name of its own. -/
inductive IsSound : FileTree α → Prop where
  | file (owner : Owner) (content : α) : IsSound (.file owner content)
  | link (owner : Owner) (target : String) : IsSound (.link owner target)
  | directory (owner : Owner) {entries : List (String × FileTree α)}
      (names : ∀ entry ∈ entries, IsName entry.1) (distinct : (entries.map (·.1)).Nodup)
      (each : ∀ entry ∈ entries, IsSound entry.2) : IsSound (.directory owner entries)

instance (name : String) : Decidable (IsName name) :=
  decidable_of_decidable_of_iff
    (p := name ≠ "" ∧ name ≠ "." ∧ name ≠ ".." ∧ '/' ∉ name.toList ∧ '\x00' ∉ name.toList ∧
      name.utf8ByteSize ≤ maxName)
    ⟨fun ⟨h₁, h₂, h₃, h₄, h₅, h₆⟩ => ⟨h₁, h₂, h₃, h₄, h₅, h₆⟩,
      fun ⟨h₁, h₂, h₃, h₄, h₅, h₆⟩ => ⟨h₁, h₂, h₃, h₄, h₅, h₆⟩⟩

theorem isSound_directory {owner : Owner} {entries : List (String × FileTree α)} :
    IsSound (.directory owner entries) ↔ (∀ entry ∈ entries, IsName entry.1) ∧
      (entries.map (·.1)).Nodup ∧ ∀ entry ∈ entries, IsSound entry.2 := by
  constructor
  · intro h
    cases h with
    | directory _ names distinct each => exact ⟨names, distinct, each⟩
  · rintro ⟨names, distinct, each⟩
    exact .directory owner names distinct each

mutual

/-- Whether a tree is sound. -/
def decideSound : (node : FileTree α) → Decidable node.IsSound
  | .file owner content => isTrue (.file owner content)
  | .link owner target => isTrue (.link owner target)
  | .directory _ entries =>
    have := decideEach entries
    decidable_of_decidable_of_iff isSound_directory.symm

/-- Whether all entries are sound. -/
def decideEach : (entries : List (String × FileTree α)) →
    Decidable (∀ entry ∈ entries, entry.2.IsSound)
  | [] => isTrue (by simp)
  | (_, node) :: rest =>
    have := decideSound node
    have := decideEach rest
    decidable_of_decidable_of_iff List.forall_mem_cons.symm

end

instance (node : FileTree α) : Decidable node.IsSound := decideSound node

section Entries

variable {owner : Owner} {entries : List (String × FileTree α)} {name : String} {node : FileTree α}

theorem IsSound.isName (h : IsSound (.directory owner entries)) (hmem : (name, node) ∈ entries) :
    IsName name :=
  (isSound_directory.mp h).1 _ hmem

theorem IsSound.distinct (h : IsSound (.directory owner entries)) :
    (entries.map (·.1)).Nodup :=
  (isSound_directory.mp h).2.1

theorem IsSound.entry (h : IsSound (.directory owner entries)) (hmem : (name, node) ∈ entries) :
    node.IsSound :=
  (isSound_directory.mp h).2.2 _ hmem

/-- What stands in a directory is found under its name. -/
theorem lookup_of_mem : ∀ {entries : List (String × FileTree α)},
    (entries.map (·.1)).Nodup → (name, node) ∈ entries → entries.lookup name = some node
  | [], _, hmem => by simp at hmem
  | (key, other) :: entries, hdistinct, hmem => by
    obtain ⟨hfresh, hrest⟩ := List.nodup_cons.mp hdistinct
    rcases List.mem_cons.mp hmem with hhead | htail
    · obtain ⟨rfl, rfl⟩ := Prod.mk.inj hhead
      simp
    · have hne : (name == key) = false := by
        have : name ∈ entries.map (·.1) := List.mem_map_of_mem htail
        simp only [beq_eq_false_iff_ne]
        rintro rfl
        exact hfresh this
      rw [List.lookup_cons, hne]
      exact lookup_of_mem hrest htail

end Entries

namespace Spot

/-- A place with sound directories above, where each stands under its name. -/
def IsSoundAt : FileTree α → List (Entered α) → Prop
  | node, [] => node.IsSound
  | node, e :: above => e.entries.lookup e.name = some node ∧
    IsSoundAt (.directory e.owner e.entries) above

/-- A place in a sound tree. -/
def IsSound (s : Spot α) : Prop := IsSoundAt s.node s.above

theorem IsSoundAt.node : ∀ {above : List (Entered α)} {node : FileTree α},
    IsSoundAt node above → node.IsSound
  | [], _, h => h
  | e :: _, _, h => by
    obtain ⟨before, behind, hentries, -⟩ := List.lookup_eq_some_iff.mp h.1
    exact (IsSoundAt.node h.2).entry (hentries ▸ List.mem_append_right _ List.mem_cons_self)

/-- Nothing is lost on the way up. -/
theorem IsSoundAt.whole : ∀ {above : List (Entered α)} {node : FileTree α},
    IsSoundAt node above → (Spot.whole node above).IsSound
  | [], _, h => h
  | e :: _, _, h => by
    rw [Spot.whole, put_lookup h.1]
    exact IsSoundAt.whole h.2

theorem IsSound.up (h : s.IsSound) : s.up.IsSound := by
  obtain ⟨node, above⟩ := s
  cases above with
  | nil => exact h
  | cons e above =>
    obtain ⟨hlookup, habove⟩ := h
    simpa [IsSound, Spot.up, put_lookup hlookup] using habove

theorem IsSound.top (h : s.IsSound) : s.top.IsSound := IsSoundAt.whole h

theorem IsSound.down (h : s.IsSound) {name : String} {owner : Owner}
    {entries : List (String × FileTree α)} {node : FileTree α}
    (here : s.node = .directory owner entries) (found : entries.lookup name = some node) :
    (s.down name owner entries node).IsSound := ⟨found, by rw [← here]; exact h⟩

end Spot

/-- Every piece of a path leads to a place in the tree. -/
theorem hop_sound (h : s.IsSound) (hmakes : m.makes = false)
    (hhop : hop m links s piece last = .ok (links', s', more)) : s'.IsSound := by
  unfold hop at hhop
  split at hhop
  next owner entries here =>
    have hdown {name : String} {node : FileTree α} (found : entries.lookup name = some node) :
        (s.down name owner entries node).IsSound := h.down here found
    grind [Spot.IsSound.up, Spot.IsSound.top]
  next => simp at hhop

theorem follow_sound (hmakes : m.makes = false) :
    ∀ {fuel links : Nat} {s : Spot α} {ps : List (List Char)}, s.IsSound →
    follow m fuel links s ps = .ok t → t.IsSound
  | _, _, _, [], hs, h => by
    simp only [follow, Except.ok.injEq] at h
    exact h ▸ hs
  | 0, _, _, _ :: _, _, h => by simp [follow] at h
  | fuel + 1, links, s, piece :: ps, hs, h => by
    obtain ⟨links', s', more, hhop, hrest⟩ := exists_hop h
    exact follow_sound hmakes (hop_sound hs hmakes hhop) hrest

theorem bound_append (ps qs : List (List Char)) : bound (ps ++ qs) = bound ps + qs.length := by
  unfold bound
  generalize (maxLinks + 1) * 4096 = most
  rw [List.length_append, Nat.add_right_comm]

/-- A name leads to what has it in the directory. -/
theorem follow_name {name : String} {owner : Owner} {entries : List (String × FileTree α)}
    {node : FileTree α} (hname : IsName name) (here : s.node = .directory owner entries)
    (found : entries.lookup name = some node) :
    follow {} (fuel + 1) links s [name.toList] = .ok (s.down name owner entries node) := by
  have hempty : name.toList ≠ [] := by simpa using hname.ne_empty
  have hdot : name.toList ≠ ['.'] := fun e => hname.ne_dot (String.toList_inj.mp e)
  have hdots : name.toList ≠ ['.', '.'] := fun e => hname.ne_dots (String.toList_inj.mp e)
  have hshort : ¬ name.utf8ByteSize > maxName := Nat.not_lt.mpr hname.short
  have hhop : hop {} links s name.toList ([] : List (List Char)).isEmpty =
      .ok (links, s.down name owner entries node, []) := by
    cases node with
    | file _ _ => simp [hop, here, hempty, hdot, hdots, hshort, found]
    | link _ _ => simp [hop, here, hempty, hdot, hdots, hshort, found]
    | directory _ _ => simp [hop, here, hempty, hdot, hdots, hshort, found]
  rw [follow_of_hop hhop, List.append_nil, follow]

/-- **A name behind a path** is followed from where the path leads through links. -/
theorem follow_behind {full name : String} {start spot : Spot α} (hname : '/' ∉ name.toList)
    (h : follow { throughLast := true } (bound (Path.pieces full.toList)) links start
      (Path.pieces full.toList) = .ok spot) :
    ∃ fuel links', ∀ {m : Manner}, m.makes = false →
      follow m (bound (Path.pieces (Path.join full name).toList)) links start
        (Path.pieces (Path.join full name).toList) =
          follow m (fuel + 1) links' spot [name.toList] := by
  obtain ⟨ps, tail, htail, hps, hpieces⟩ := Path.pieces_join full hname
  rw [hps] at h
  obtain ⟨fuel, links', s, hend, hbehind⟩ := follow_append h
  -- the name takes one step, and an empty piece at the end has left one
  obtain ⟨rfl, k, hbound, hfuel⟩ : s = spot ∧
      ∃ k, bound (ps ++ tail) + k = bound (ps ++ [name.toList]) ∧ 0 < fuel + k := by
    rcases htail with rfl | rfl
    · exact ⟨by simpa only [follow, Except.ok.injEq] using hend, 1,
        by rw [bound_append, bound_append]; rfl, Nat.succ_pos _⟩
    · obtain ⟨hs, hpos⟩ := follow_nil_piece hend
      exact ⟨hs, 0, by rw [bound_append, bound_append]; rfl, hpos⟩
  obtain ⟨fuel', hfuel'⟩ := Nat.exists_eq_add_one_of_ne_zero (Nat.ne_of_gt hfuel)
  refine ⟨fuel', links', fun hmakes => ?_⟩
  rw [hpieces, ← hbound, hbehind hmakes k (List.cons_ne_nil _ _), hfuel']

/-- **A path and a name behind it** lead to what has that name in the directory
the path leads to. -/
theorem follow_join {full name : String} {start spot : Spot α} {owner : Owner}
    {entries : List (String × FileTree α)} {node : FileTree α} (hname : IsName name)
    (h : follow {} (bound (Path.pieces full.toList)) links start (Path.pieces full.toList) =
      .ok spot)
    (here : spot.node = .directory owner entries) (found : entries.lookup name = some node) :
    follow {} (bound (Path.pieces (Path.join full name).toList)) links start
      (Path.pieces (Path.join full name).toList) = .ok (spot.down name owner entries node) := by
  obtain ⟨fuel, links', hbehind⟩ :=
    follow_behind hname.noSlash (follow_through h (by rw [here]; rfl))
  rw [hbehind rfl]
  exact follow_name hname here found

end FileTree

namespace FileSystem

open FileTree

variable {fs : FileSystem α} {m : Manner} {path name : String} {spot : Spot α}

/-- Whether a path is short enough to be followed. -/
def fits (fs : FileSystem α) (path : String) : Bool :=
  (Path.join fs.base path).utf8ByteSize ≤ maxPath

theorem resolve_eq_ok : fs.resolve m path = .ok spot ↔
    '\x00' ∉ path.toList ∧ path ≠ "" ∧ fs.fits path = true ∧
      let ps := Path.pieces (Path.join fs.base path).toList
      follow m (bound ps) maxLinks ⟨fs.tree, []⟩ ps = .ok spot := by
  unfold resolve fits
  grind [String.isEmpty_iff]

theorem find_eq_ok {node : FileTree α} :
    fs.find path = .ok node ↔ ∃ spot, fs.resolve {} path = .ok spot ∧ spot.node = node := by
  unfold find
  cases fs.resolve {} path <;> simp [Except.map]

theorem find_sound (hsound : fs.tree.IsSound) {node : FileTree α} (h : fs.find path = .ok node) :
    node.IsSound := by
  obtain ⟨spot, hspot, rfl⟩ := find_eq_ok.mp h
  obtain ⟨-, -, -, hfollow⟩ := resolve_eq_ok.mp hspot
  have hstart : (⟨fs.tree, []⟩ : Spot α).IsSound := hsound
  exact (follow_sound rfl hstart hfollow).node

/-- What a path leads to it leads to through links, unless it is one. -/
theorem findThrough_of_find {node : FileTree α} (h : fs.find path = .ok node)
    (hlink : node.isLink = false) : fs.findThrough path = .ok node := by
  obtain ⟨spot, hspot, rfl⟩ := find_eq_ok.mp h
  obtain ⟨hzero, hempty, hfits, hfollow⟩ := resolve_eq_ok.mp hspot
  have : fs.resolve { throughLast := true } path = .ok spot :=
    resolve_eq_ok.mpr ⟨hzero, hempty, hfits, follow_through hfollow hlink⟩
  rw [findThrough, this, Except.map]

/-- **An entry of a directory is found by its path**, unless that is too long. -/
theorem find_join {owner : Owner} {entries : List (String × FileTree α)} {node : FileTree α}
    (hsound : fs.tree.IsSound) (h : fs.find path = .ok (.directory owner entries))
    (hmem : (name, node) ∈ entries) :
    fs.find (Path.join path name) =
      if fs.fits (Path.join path name) then .ok node else .error .nameTooLong := by
  have hdirectory := find_sound hsound h
  obtain ⟨spot, hspot, here⟩ := find_eq_ok.mp h
  obtain ⟨hzero, hempty, hfits, hfollow⟩ := resolve_eq_ok.mp hspot
  have hname := hdirectory.isName hmem
  have hhead := hname.head_ne
  have hzero' : '\x00' ∉ (Path.join path name).toList := by
    rw [Path.join_of_ne hhead]
    split <;> simp [hzero, hname.noZero]
  have hempty' : Path.join path name ≠ "" := Path.join_ne_empty hname.ne_empty
  by_cases hshort : fs.fits (Path.join path name)
  · have hfound := follow_join hname hfollow here (lookup_of_mem hdirectory.distinct hmem)
    rw [← Path.join_join hempty hhead] at hfound
    rw [if_pos hshort]
    exact find_eq_ok.mpr ⟨_, resolve_eq_ok.mpr ⟨hzero', hempty', hshort, hfound⟩, rfl⟩
  · have hsize : maxPath < (Path.join fs.base (Path.join path name)).utf8ByteSize := by
      simpa [fits] using hshort
    rw [if_neg hshort, find, resolve, if_neg hzero', if_neg (by simpa using hempty'), if_pos hsize,
      Except.map]

end FileSystem

end QuotaWatch
