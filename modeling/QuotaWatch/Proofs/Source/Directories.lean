/-
# The directories of instances

An id that the monitor accepts is one step down from the root of the usage
source, whatever the root is, and different ids are different steps
(`Path.components_join`). The source opens no path but that of the directory and
those of files in it (`Cgroup.Provider.find_congr`), so unless links lead out of
the directory nothing outside of it counts (`Cgroup.Provider.find_of_entry`).
The monitor asks for the usage of accepted ids alone, whoever started the
instances (`Monitor.usage_asked`).

Key definitions: `Path.IsStep`, `FileTree.entry`, `Cgroup.Provider.Opens`,
`Cgroup.Provider.StaysInside`.
Key theorems: `Path.components_join`, `FileSystem.findThrough_join`,
`Cgroup.Provider.find_congr`, `Cgroup.Provider.find_of_entry`, `Monitor.usage_asked`,
`Server.directories_of_deeds`.
-/
import QuotaWatch.Source.Cgroup
import QuotaWatch.Proofs.Source.Paths
import QuotaWatch.Proofs.Monitor.Construction
import QuotaWatch.Proofs.Agent.Requests

namespace QuotaWatch

open Time

namespace Path

/-- A name that leads one step down. -/
structure IsStep (name : String) : Prop where
  ne_empty : name ≠ ""
  ne_dot : name ≠ "."
  ne_dots : name ≠ ".."
  noSlash : '/' ∉ name.toList
  noZero : '\x00' ∉ name.toList

variable {root name : String}

theorem IsStep.head_ne (h : IsStep name) : name.toList.head? ≠ some '/' :=
  fun e => h.noSlash (List.mem_of_mem_head? e)

/-! ### Components -/

/-- The component that a path starts with if it starts at the top, or with a dot. -/
def lead : List (List Char) → List (List Char)
  | [] => []
  | first :: rest =>
    if first = [] ∧ rest ≠ [] then [['/']] else if first = ['.'] then [['.']] else []

theorem components_eq (path : String) :
    components path =
      (lead (pieces path.toList) ++ steps (pieces path.toList)).map String.ofList := by
  obtain ⟨first, rest, hps⟩ := List.exists_cons_of_ne_nil (pieces_ne_nil path.toList)
  simp only [components, hps]
  congr 2
  cases rest <;> split <;> simp_all [lead]

theorem eq_nil_of_pieces {cs : List Char} (h : pieces cs = [[]]) : cs = [] := by
  cases cs with
  | nil => rfl
  | cons c cs =>
    have hne := pieces_ne_nil cs
    unfold pieces at h
    grind

/-- The start of a path does not depend on what stands in the place of its end. -/
theorem lead_append {ps tail : List (List Char)} (piece : List Char) (hps : ps ≠ [])
    (hempty : ps ++ tail ≠ [[]]) :
    lead (ps ++ [piece]) = lead (ps ++ tail) := by
  obtain ⟨first, rest, rfl⟩ := List.exists_cons_of_ne_nil hps
  by_cases hfirst : first = []
  · have hbehind : rest ++ tail ≠ [] := fun e => hempty (by rw [List.cons_append, e, hfirst])
    simp [lead, hfirst, hbehind]
  · simp [lead, hfirst]

theorem steps_append (ps qs : List (List Char)) : steps (ps ++ qs) = steps ps ++ steps qs :=
  List.filter_append ..

theorem IsStep.steps_eq (h : IsStep name) : steps [name.toList] = [name.toList] := by
  have hempty : name.toList ≠ [] := by simpa using h.ne_empty
  have hdot : name.toList ≠ ['.'] := fun e => h.ne_dot (String.toList_inj.mp e)
  simp [steps, hempty, hdot]

/-- **A step down** from a path adds its name to the components, whatever the
path is. -/
theorem components_join (root : String) (h : IsStep name) :
    components (join root name) = components root ++ [name] := by
  have hlast : (steps [name.toList]).map String.ofList = [name] := by
    rw [h.steps_eq, List.map_singleton, String.ofList_toList]
  by_cases hroot : root = ""
  · subst hroot
    have hjoin : join "" name = name := by
      rw [join_of_ne h.head_ne]
      simp [isOpen]
    have hlead : lead [name.toList] = [] := by
      have hdot : name.toList ≠ ['.'] := fun e => h.ne_dot (String.toList_inj.mp e)
      unfold lead
      split <;> simp_all
    rw [hjoin, components_eq, pieces_eq_self h.noSlash, hlead, List.nil_append, hlast]
    rfl
  · obtain ⟨ps, tail, htail, hps, hpieces⟩ := pieces_join root h.noSlash
    have hempty : ps ++ tail ≠ [[]] := fun e =>
      hroot (by simpa using eq_nil_of_pieces (hps.trans e))
    have hne : ps ≠ [] := by
      rintro rfl
      rcases htail with rfl | rfl
      · exact pieces_ne_nil _ hps
      · exact hempty rfl
    have htailSteps : steps tail = [] := by rcases htail with rfl | rfl <;> rfl
    rw [components_eq, components_eq, hpieces, hps, lead_append _ hne hempty, steps_append,
      steps_append, htailSteps, List.append_nil, ← List.append_assoc, List.map_append, hlast]

/-- Different steps from a path lead to different places. -/
theorem eq_of_components_prefix {base rest rest' : List String} {path other : String}
    (h : components path = base ++ name :: rest) (h' : components path = base ++ other :: rest') :
    name = other :=
  (List.cons.inj (List.append_cancel_left (h.symm.trans h'))).1

end Path

/-- An id that is accepted is a step. -/
theorem isStep_of_isInstanceId {id : String} (h : isInstanceId id = true) : Path.IsStep id := by
  simp only [isInstanceId, Bool.and_eq_true, Bool.not_eq_true', bne_iff_ne, ne_eq,
    List.all_eq_true] at h
  obtain ⟨⟨⟨hempty, hdot⟩, hdots⟩, hall⟩ := h
  refine ⟨by simpa using hempty, hdot, hdots, fun hmem => ?_, fun hmem => ?_⟩
  · simpa using hall _ hmem
  · simpa using hall _ hmem

namespace FileTree

/-! ### What stands in a directory -/

/-- What a directory has under a name. -/
def entry (name : String) : FileTree α → Except IoFault (FileTree α)
  | .directory _ entries =>
    if maxName < name.utf8ByteSize then .error .nameTooLong
    else
      match entries.lookup name with
      | none => .error .notFound
      | some node => .ok node
  | _ => .error .notDirectory

variable {fuel links : ℕ} {s spot : Spot α} {name : String}

/-- A step leads to what has its name, unless that is a link. -/
theorem follow_step (hname : Path.IsStep name)
    (hlink : ∀ node, s.node.entry name = .ok node → node.isLink = false) :
    (follow { throughLast := true } (fuel + 1) links s [name.toList]).map (·.node) =
      s.node.entry name := by
  have hempty : name.toList ≠ [] := by simpa using hname.ne_empty
  have hdot : name.toList ≠ ['.'] := fun e => hname.ne_dot (String.toList_inj.mp e)
  have hdots : name.toList ≠ ['.', '.'] := fun e => hname.ne_dots (String.toList_inj.mp e)
  cases hnode : s.node with
  | file owner content => simp [follow, hop, hnode, entry, Except.map]
  | link owner target => simp [follow, hop, hnode, entry, Except.map]
  | directory owner entries =>
    by_cases hlong : maxName < name.utf8ByteSize
    · simp [follow, hop, hnode, entry, hempty, hdot, hdots, hlong, Except.map]
    · cases hfound : entries.lookup name with
      | none => simp [follow, hop, hnode, entry, hempty, hdot, hdots, hlong, hfound, Except.map]
      | some node =>
        have hplain : node.isLink = false := hlink node (by simp [hnode, entry, hlong, hfound])
        cases node with
        | link owner target => cases hplain
        | file _ _ =>
          simp [follow, hop, hnode, entry, hempty, hdot, hdots, hlong, hfound, Except.map, Spot.down]
        | directory _ _ =>
          simp [follow, hop, hnode, entry, hempty, hdot, hdots, hlong, hfound, Except.map, Spot.down]

/-- **A path and a step behind it** lead to what has the name in what the path
leads to. -/
theorem follow_below {full : String} {start : Spot α} (hname : Path.IsStep name)
    (h : follow { throughLast := true } (bound (Path.pieces full.toList)) links start
      (Path.pieces full.toList) = .ok spot)
    (hlink : ∀ node, spot.node.entry name = .ok node → node.isLink = false) :
    (follow { throughLast := true } (bound (Path.pieces (Path.join full name).toList)) links start
      (Path.pieces (Path.join full name).toList)).map (·.node) = spot.node.entry name := by
  obtain ⟨fuel, links', hbehind⟩ := follow_behind hname.noSlash h
  rw [hbehind rfl]
  exact follow_step hname hlink

end FileTree

namespace FileSystem

open FileTree

variable {fs fs' : FileSystem α} {path name : String} {node : FileTree α}

theorem findThrough_eq_ok :
    fs.findThrough path = .ok node ↔
      ∃ spot, fs.resolve { throughLast := true } path = .ok spot ∧ spot.node = node := by
  unfold findThrough
  cases fs.resolve { throughLast := true } path <;> simp [Except.map]

/-- **What stands behind a step from a path** is what has the name there, if it
is no link and the path is short enough. -/
theorem findThrough_join (hname : Path.IsStep name) (h : fs.findThrough path = .ok node)
    (hlink : ∀ behind, node.entry name = .ok behind → behind.isLink = false) :
    fs.findThrough (Path.join path name) =
      if fs.fits (Path.join path name) then node.entry name else .error .nameTooLong := by
  obtain ⟨spot, hspot, rfl⟩ := findThrough_eq_ok.mp h
  obtain ⟨hzero, hempty, hfits, hfollow⟩ := resolve_eq_ok.mp hspot
  have hzero' : '\x00' ∉ (Path.join path name).toList := by
    rw [Path.join_of_ne hname.head_ne]
    split <;> simp [hzero, hname.noZero]
  have hempty' : (Path.join path name).isEmpty = false := by
    have hne : Path.join path name ≠ "" := Path.join_ne_empty hname.ne_empty
    simpa using hne
  have hbelow := follow_below hname hfollow hlink
  rw [← Path.join_join hempty hname.head_ne] at hbelow
  unfold findThrough resolve
  rw [if_neg hzero', hempty', if_neg Bool.false_ne_true]
  by_cases hshort : fs.fits (Path.join path name)
  · have hsize : ¬ maxPath < (Path.join fs.base (Path.join path name)).utf8ByteSize := by
      simpa [fits] using hshort
    rw [if_neg hsize, if_pos hshort]
    exact hbelow
  · have hsize : maxPath < (Path.join fs.base (Path.join path name)).utf8ByteSize := by
      simpa [fits] using hshort
    rw [if_pos hsize, if_neg hshort]
    rfl

end FileSystem

namespace Cgroup.Provider

/-! ### What is read for an instance -/

/-- The files that are read in the directory of an instance. -/
def fileNames : List String := ["cpu.stat", "memory.current"]

/-- A path down from the directory of an instance, or that of the directory. -/
def Below (p : Provider) (id path : String) : Prop :=
  ∃ rest, ".." ∉ rest ∧ Path.components path = Path.components p.root ++ id :: rest

/-- No link stands in the place of the directory of an instance, nor in that of a
file in it. -/
def StaysInside (id : String) (top : FileTree ByteArray) : Prop :=
  ∀ node, top.entry id = .ok node → node.isLink = false ∧
    ∀ name ∈ fileNames, ∀ file, node.entry name = .ok file → file.isLink = false

variable {p : Provider} {fs fs' : FileSystem ByteArray} {id other path : String}
  {top top' : FileTree ByteArray}

theorem isStep_of_mem_fileNames {name : String} (h : name ∈ fileNames) : Path.IsStep name := by
  rcases List.mem_pair.mp h with rfl | rfl
  · exact ⟨by decide, by decide, by decide, by decide, by decide⟩
  · exact ⟨by decide, by decide, by decide, by decide, by decide⟩

theorem components_directory (p : Provider) (hid : isInstanceId id = true) :
    Path.components (p.directory id) = Path.components p.root ++ [id] :=
  Path.components_join p.root (isStep_of_isInstanceId hid)

theorem below_directory (p : Provider) (hid : isInstanceId id = true) :
    p.Below id (p.directory id) :=
  ⟨[], List.not_mem_nil, p.components_directory hid⟩

theorem below_file (p : Provider) (hid : isInstanceId id = true) {name : String}
    (hname : Path.IsStep name) : p.Below id (Path.join (p.directory id) name) := by
  refine ⟨[name], by simpa using Ne.symm hname.ne_dots, ?_⟩
  rw [Path.components_join _ hname, p.components_directory hid, List.append_assoc,
    List.singleton_append]

/-- No path leads down from the directories of two instances. -/
theorem eq_of_below (h : p.Below id path) (h' : p.Below other path) : id = other := by
  obtain ⟨rest, -, hpath⟩ := h
  obtain ⟨rest', -, hpath'⟩ := h'
  exact Path.eq_of_components_prefix hpath hpath'

theorem readText_congr (h : fs.findThrough path = fs'.findThrough path) :
    fs.readText path = fs'.readText path := by
  unfold FileSystem.readText
  rw [h]

theorem find_eq (p : Provider) (fs : FileSystem ByteArray) (id : String) :
    p.find fs id = (fs.findThrough (p.directory id)).map fun _ =>
      ⟨fs.readText (Path.join (p.directory id) "cpu.stat"),
        fs.readText (Path.join (p.directory id) "memory.current")⟩ := by
  show (fs.findThrough (p.directory id)).bind _ = _
  cases fs.findThrough (p.directory id) <;> rfl

/-- What is found depends on the directory and the files in it. -/
theorem find_of_findThrough
    (hdirectory : fs.findThrough (p.directory id) = fs'.findThrough (p.directory id))
    (hfiles : ∀ node, fs.findThrough (p.directory id) = .ok node → ∀ name ∈ fileNames,
      fs.findThrough (Path.join (p.directory id) name) =
        fs'.findThrough (Path.join (p.directory id) name)) :
    p.find fs id = p.find fs' id := by
  rw [find_eq, find_eq, ← hdirectory]
  cases hfound : fs.findThrough (p.directory id) with
  | error fault => rw [Except.map, Except.map]
  | ok node =>
    have hstat := readText_congr (hfiles node hfound "cpu.stat" List.mem_cons_self)
    have hmemory := readText_congr
      (hfiles node hfound "memory.current" (List.mem_cons_of_mem _ List.mem_cons_self))
    rw [hstat, hmemory]

/-- **No path is opened for an instance** but those down from its directory. -/
theorem find_congr (hid : isInstanceId id = true)
    (h : ∀ path, p.Below id path → fs.findThrough path = fs'.findThrough path) :
    p.find fs id = p.find fs' id :=
  find_of_findThrough (h _ (p.below_directory hid)) fun _ _ _ hname =>
    h _ (p.below_file hid (isStep_of_mem_fileNames hname))

/-- **Nothing outside of its directory counts for an instance**, unless links
lead there: where the root has the same under the id, the same is found. -/
theorem find_of_entry (hid : isInstanceId id = true) (hbase : fs.base = fs'.base)
    (htop : fs.findThrough p.root = .ok top) (htop' : fs'.findThrough p.root = .ok top')
    (hsame : top.entry id = top'.entry id) (hinside : StaysInside id top) :
    p.find fs id = p.find fs' id := by
  have hstep := isStep_of_isInstanceId hid
  have hfits : ∀ path, fs.fits path = fs'.fits path := fun path => by
    rw [FileSystem.fits, FileSystem.fits, hbase]
  have hplain : ∀ node, top.entry id = .ok node → node.isLink = false :=
    fun node hnode => (hinside node hnode).1
  have hplain' : ∀ node, top'.entry id = .ok node → node.isLink = false := hsame ▸ hplain
  have hdirectory : fs.findThrough (p.directory id) = fs'.findThrough (p.directory id) := by
    rw [directory, FileSystem.findThrough_join hstep htop hplain,
      FileSystem.findThrough_join hstep htop' hplain', hfits, hsame]
  refine find_of_findThrough hdirectory fun node hnode name hname => ?_
  have hfiles : ∀ file, node.entry name = .ok file → file.isLink = false := by
    rw [directory, FileSystem.findThrough_join hstep htop hplain] at hnode
    split at hnode
    · exact (hinside node hnode).2 name hname
    · cases hnode
  have hnode' : fs'.findThrough (p.directory id) = .ok node := hdirectory ▸ hnode
  rw [FileSystem.findThrough_join (isStep_of_mem_fileNames hname) hnode hfiles,
    FileSystem.findThrough_join (isStep_of_mem_fileNames hname) hnode' hfiles, hfits]

/-- An instance has its directory for itself, right below the root, and nothing
else is read for it. -/
structure Confines (p : Provider) (id : String) : Prop where
  components : Path.components (p.directory id) = Path.components p.root ++ [id]
  isStep : Path.IsStep id
  apart : ∀ other, isInstanceId other = true → other ≠ id →
    p.directory other ≠ p.directory id ∧ ∀ path, p.Below id path → ¬ p.Below other path
  /-- Only paths down from the directory are opened. -/
  opened : ∀ fs fs' : FileSystem ByteArray,
    (∀ path, p.Below id path → fs.findThrough path = fs'.findThrough path) →
      p.find fs id = p.find fs' id
  /-- Unless links lead elsewhere, only what stands in the directory counts. -/
  inside : ∀ (fs fs' : FileSystem ByteArray) (top top' : FileTree ByteArray), fs.base = fs'.base →
    fs.findThrough p.root = .ok top → fs'.findThrough p.root = .ok top' →
    top.entry id = top'.entry id → StaysInside id top → p.find fs id = p.find fs' id

theorem confines (p : Provider) (hid : isInstanceId id = true) : p.Confines id where
  components := p.components_directory hid
  isStep := isStep_of_isInstanceId hid
  apart := by
    intro other hother hne
    refine ⟨fun hsame => ?_, fun path hpath hpath' => hne (eq_of_below hpath hpath').symm⟩
    have hbelow := p.below_directory hother
    rw [hsame] at hbelow
    exact hne (eq_of_below hbelow (p.below_directory hid))
  opened := fun _ _ => find_congr hid
  inside := fun _ _ _ _ hbase htop htop' => find_of_entry hid hbase htop htop'

end Cgroup.Provider

/-! ### The ids that the source is asked for -/

namespace Monitor

variable {m : Monitor} {id : String}

/-- The source is asked for the ids that are registered. -/
theorem mem_ids_of_usage {op : Operation} (h : .usage id ∈ asked (m.step op).2) :
    id ∈ m.instances.ids := by
  cases op with
  | poll a now =>
    have hprobes : .usage id ∈ m.probes a := m.asked_pollEvents a now ▸ h
    have hsystem : .usage id ∉ .prefetch :: m.systemProbes := by
      cases hwatch : m.watchesTraffic <;> simp [systemProbes, hwatch]
    obtain ⟨⟨other, i⟩, hentry, hprobe⟩ :=
      List.mem_flatMap.mp ((List.mem_append.mp hprobes).resolve_left hsystem)
    have hother : id = other := by
      simp only [instanceProbes] at hprobe
      split at hprobe <;> simpa using hprobe
    exact hother ▸ List.mem_map_of_mem hentry
  | send now => cases h
  | start other params =>
    have hnone := asked_eq_nil fun event (hevent : event ∈ (m.start other params).events) =>
      (start_events hevent).imp fun _ hnotice => hnotice.1
    rw [step, hnone] at h
    cases h
  | stop other =>
    have hnone := asked_eq_nil fun event (hevent : event ∈ (m.stop other).events) =>
      (stop_events hevent).imp fun _ hnotice => hnotice.1
    rw [step, hnone] at h
    cases h
  | query => cases h

/-- **The source is asked for accepted ids alone.** -/
theorem usage_asked (absent : ∀ id, m.instances.get? id = none) : ∀ before ops : List Operation,
    .usage id ∈ asked ((m.after before).effects ops) → isInstanceId id = true
  | _, [], h => by cases h
  | before, op :: ops, h => by
    rw [effects, asked_append, List.mem_append] at h
    rcases h with hstep | hrest
    · exact isInstanceId_of_mem_ids (absent id) (mem_ids_of_usage hstep)
    · rw [← after_concat] at hrest
      exact usage_asked absent (before ++ [op]) ops hrest

end Monitor

namespace Server

/-- **Instances stay below the root.** However requests, ticks of the loop and
direct calls follow on each other, the usage source is asked for accepted ids
alone, and each of them has a directory for itself, right below the root, out of
which nothing is read. -/
theorem directories_of_deeds {b : Blueprint} {a₀ : Answers} {m : Monitor}
    (hm : (Monitor.build b a₀).result = .ok m) (wall : Timestamp) (sink : AlertSink)
    (queue : Option (Queue Snapshot)) (deeds : List Deed) :
    (∀ id, .usage id ∈ asked (m.effects ((idle m wall sink queue).works deeds)) →
      isInstanceId id = true) ∧
    ∀ (p : Cgroup.Provider) (id : String), isInstanceId id = true → p.Confines id :=
  ⟨fun _ => Monitor.usage_asked (Monitor.get?_of_build hm) [] _, fun p _ => p.confines⟩

/-- Groups below a root, that of the instance `a` and another. -/
def groupsOf (group other : FileTree ByteArray) : FileTree ByteArray :=
  .directory {} [("a", group), ("b", other)]

/-- A file system with groups in a directory at its top. -/
def systemOf (group other : FileTree ByteArray) : FileSystem ByteArray :=
  { tree := .directory {} [("g", groupsOf group other)] }

/-- A group with its two files. -/
def smallGroup : FileTree ByteArray :=
  .directory {} [("cpu.stat", .file {} "usage_usec 5".toUTF8),
    ("memory.current", .file {} "7".toUTF8)]

theorem findThrough_systemOf (group other : FileTree ByteArray) :
    (systemOf group other).findThrough "/g/." = .ok (groupsOf group other) := by
  have hpieces : Path.pieces (Path.join "/" "/g/.").toList = [[], ['g'], ['.']] := by decide
  have hfits : (Path.join "/" "/g/.").utf8ByteSize ≤ FileSystem.maxPath := by decide
  let start : FileTree.Spot ByteArray := ⟨(systemOf group other).tree, []⟩
  let spot := start.down "g" {} [("g", groupsOf group other)] (groupsOf group other)
  refine FileSystem.findThrough_eq_ok.mpr ⟨spot, FileSystem.resolve_eq_ok.mpr
    ⟨by decide, by decide, decide_eq_true hfits, ?_⟩, rfl⟩
  have hbase : (systemOf group other).base = "/" := rfl
  rw [hbase, hpieces]
  rfl

theorem entry_groupsOf (group other : FileTree ByteArray) :
    (groupsOf group other).entry "a" = .ok group := rfl

/-- A client asks for an instance with an escape in its id, and it is polled. -/
def servedRequest : List Deed :=
  [.arrive 0 escapedStart, .serve 0, .poll (Monitor.underLoad 95 none).answers]

/-- The usage of the instance that was asked for with an escape in its id is read
right below the root, and the same whatever the other group is. -/
theorem directories_of_deeds_servedRequest :
    .usage "a" ∈ asked (Monitor.smallMonitor.effects
      ((idle Monitor.smallMonitor ⟨1000, false⟩ .nowhere none).works servedRequest)) ∧
    isInstanceId "a" = true ∧
    (Cgroup.Provider.new "/g/." 2).directory "a" = "/g/./a" ∧
    Path.components "/g/./a" = ["/", "g", "a"] ∧
    ∀ other : FileTree ByteArray,
      (Cgroup.Provider.new "/g/." 2).find (systemOf smallGroup other) "a" =
        (Cgroup.Provider.new "/g/." 2).find (systemOf smallGroup smallGroup) "a" := by
  obtain ⟨hasked, hconfines⟩ :=
    directories_of_deeds Monitor.build_smallNode ⟨1000, false⟩ .nowhere none servedRequest
  have hworks : (idle Monitor.smallMonitor ⟨1000, false⟩ .nowhere none).works servedRequest =
      [.start "a" escapedParams, .poll (Monitor.underLoad 95 none).answers ⟨1000, false⟩] := by
    obtain ⟨s, hs⟩ : ∃ s, s = (idle Monitor.smallMonitor ⟨1000, false⟩ .nowhere none).step
      (.arrive 0 escapedStart) := ⟨_, rfl⟩
    have hwaiting : s.waiting 0 = some escapedStart := by simp [hs, step, waitingAfter, idle]
    have hserve : s.work (.serve 0) = [.start "a" escapedParams] := by
      rw [work, hwaiting, Option.bind_some, operation?_escapedStart]
      rfl
    have hwall : (s.step (.serve 0)).agent.wall = ⟨1000, false⟩ := by
      rw [step, agentAfter, hwaiting, Option.elim_some, Agent.monitor_answer, hs]
      rfl
    have hpoll : ∀ given, (s.step (.serve 0)).work (.poll given) = [.poll given ⟨1000, false⟩] :=
      fun given => hwall ▸ rfl
    rw [servedRequest, works, works, works, works, ← hs, hserve, hpoll]
    rfl
  have hasks : .usage "a" ∈ asked (Monitor.smallMonitor.effects
      ((idle Monitor.smallMonitor ⟨1000, false⟩ .nowhere none).works servedRequest)) := by
    have hprobe : .usage "a" ∈ (Monitor.smallMonitor.after [.start "a" escapedParams]).probes
        (Monitor.underLoad 95 none).answers := by decide
    rw [hworks, Monitor.effects, Monitor.effects, asked_append, asked_append]
    refine List.mem_append_right _ (List.mem_append_left _ ?_)
    rw [Monitor.step, Monitor.poll, Monitor.asked_pollEvents]
    exact hprobe
  have hid := hasked "a" hasks
  have hc := hconfines (Cgroup.Provider.new "/g/." 2) "a" hid
  refine ⟨hasks, hid, by decide, by decide, fun other => ?_⟩
  refine hc.inside _ _ _ _ rfl (findThrough_systemOf _ _) (findThrough_systemOf _ _) ?_ ?_
  · rw [entry_groupsOf, entry_groupsOf]
  · intro node hnode
    rw [entry_groupsOf] at hnode
    cases hnode
    refine ⟨rfl, fun name hname file hfile => ?_⟩
    rcases List.mem_pair.mp hname with rfl | rfl
    · cases hfile
      rfl
    · cases hfile
      rfl

end Server

end QuotaWatch
