/-
# Usage from control groups

Each instance has a directory of its own below a root, with a counter of the CPU
time that it has used and with its memory. The CPU figure is the time used
between two samples as a share of what all CPUs could have given.

Key definitions: `Cgroup.parseCpuTime`, `Cgroup.cpuBetween`, `Cgroup.sample`.
Key theorems: `Cgroup.sample_failed`, `Cgroup.cpuBetween_le`.
-/
import QuotaWatch.Source.FileSystem
import QuotaWatch.Text.Blank
import QuotaWatch.Decimal.Reader

namespace QuotaWatch.Cgroup

open Time Text

/-- A 64-bit word: digits behind an optional plus sign. -/
def readWord? (cs : List Char) : Option UInt64 := do
  let digits := match cs with
    | '+' :: rest => rest
    | rest => rest
  let n ← Decimal.readNat? digits
  if n ≤ Decimal.maxWord then some (UInt64.ofNat n) else none

/-- The lines of a text. -/
def lines : List Char → List (List Char)
  | [] => [[]]
  | '\n' :: rest => [] :: lines rest
  | c :: rest =>
    match lines rest with
    | [] => [[c]]
    | first :: others => (c :: first) :: others

/-- The key of the counter of CPU time. -/
def cpuTimeKey : List Char := "usage_usec".toList

/-- The CPU time in the first line that has it, in microseconds. -/
def cpuTimeIn : List (List Char) → Except SourceFault UInt64
  | [] => .error (.parse "cpu.stat" "missing usage_usec")
  | line :: rest =>
    match words line with
    | [] => cpuTimeIn rest
    | key :: values =>
      if key = cpuTimeKey then
        let value := values.head?.getD []
        match readWord? value with
        | some n => .ok n
        | none => .error (.parse "cpu.stat usage_usec" (String.ofList value))
      else cpuTimeIn rest

/-- The CPU time in the statistics of a group. -/
def parseCpuTime (content : String) : Except SourceFault UInt64 := cpuTimeIn (lines content.toList)

/-- A file with one number. -/
def parseValue (path content : String) : Except SourceFault UInt64 :=
  match readWord? (trim content.toList) with
  | some n => .ok n
  | none => .error (.parse path (String.ofList (trim content.toList)))

/-- The share of all CPUs that was used, in hundredths of a percent: nothing
where no time passed or the counter went back, never more than all. -/
def cpuBetween (cpus before after : UInt64) (micros : Nat) : Figure :=
  if micros = 0 then 0
  else
    UInt64.ofNat (min fullCpu.toNat
      ((after.toNat - before.toNat) * fullCpu.toNat / (micros * cpus.toNat)))

/-- Whole microseconds that passed; none where the clock went back or the
number does not fit into 64 bits with a sign. -/
def microsBetween (since now : Timestamp) : Nat :=
  let micros := (since.between now).tdiv 1000
  if micros < 0x8000000000000000 then micros.toNat else 0

/-- The files of one instance, as far as they can be read. -/
structure Files where
  cpuStat : Except IoFault String
  memory : Except IoFault String

/-- A provider of usage with its root and the number of CPUs, at least one. -/
structure Provider where
  root : String
  cpus : UInt64
deriving Repr

/-- A provider; a node has at least one CPU. -/
def Provider.new (root : String) (cpus : UInt64) : Provider := ⟨root, max cpus 1⟩

/-- The directory of an instance. -/
def Provider.directory (p : Provider) (id : String) : String := Path.join p.root id

/-- The files of an instance, if anything stands in the place of its directory. -/
def Provider.find (p : Provider) (fs : FileSystem ByteArray) (id : String) :
    Except IoFault Files := do
  let directory := p.directory id
  let _ ← fs.findThrough directory
  .ok ⟨fs.readText (Path.join directory "cpu.stat"),
    fs.readText (Path.join directory "memory.current")⟩

/-- CPU time and memory of an instance. -/
def Provider.read (p : Provider) (id : String) (found : Except IoFault Files) :
    Except SourceFault (UInt64 × UInt64) :=
  let path (name : String) := Path.join (p.directory id) name
  match found with
  | .error .notFound => .error (.unknownInstance id)
  | .error fault => .error (.io (p.directory id) fault.message)
  | .ok files => do
    let stat ← files.cpuStat.mapError fun f => SourceFault.io (path "cpu.stat") f.message
    let time ← parseCpuTime stat
    let memory ← files.memory.mapError fun f => SourceFault.io (path "memory.current") f.message
    let ram ← parseValue (path "memory.current") memory
    .ok (time, ram)

/-- The usage after a sample that found this CPU time and memory. -/
def Provider.advance (p : Provider) (usage : InstanceUsage) (now : Timestamp) (time ram : UInt64) :
    InstanceUsage :=
  let cpu := match usage.counter, usage.sampledAt with
    | some before, some since => cpuBetween p.cpus before time (microsBetween since now)
    | _, _ => 0
  ⟨cpu, ram, some time, some now⟩

/-- Sample an instance: the usage afterwards, and the fault if there was one. -/
def Provider.sample (p : Provider) (id : String) (found : Except IoFault Files)
    (usage : InstanceUsage) (now : Timestamp) : InstanceUsage × Option SourceFault :=
  match p.read id found with
  | .ok (time, ram) => (p.advance usage now time ram, none)
  | .error fault => (usage, some fault)

/-- A sample that fails changes nothing. -/
theorem Provider.sample_failed {p : Provider} {id : String} {found : Except IoFault Files}
    {usage : InstanceUsage} {now : Timestamp} {fault : SourceFault}
    (h : (p.sample id found usage now).2 = some fault) :
    (p.sample id found usage now).1 = usage := by
  unfold sample at h ⊢
  split at h <;> simp_all

/-- The figure is at most that of a node that is wholly busy. -/
theorem cpuBetween_le (cpus before after : UInt64) (micros : Nat) :
    (cpuBetween cpus before after micros).toNat ≤ fullCpu.toNat := by
  unfold cpuBetween
  split
  · simp
  · rw [UInt64.toNat_ofNat']
    exact Nat.le_trans (Nat.mod_le _ _) (Nat.min_le_left _ _)

end QuotaWatch.Cgroup
