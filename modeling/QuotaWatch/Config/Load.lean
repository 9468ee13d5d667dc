/-
# The configuration of an agent

An agent is configured by a file and by the environment, which is laid over it.
The file is read by what its name ends in; a file that is not there or whose
ending nobody reads adds nothing.

Of the library that reads configurations it is assumed that it takes a file for
TOML or JSON by its ending, lays the entries of the file over an empty table and
those of the environment over that, each at the place that its key spells, and
that a table is laid over entry by entry. A table is a hash map there, so its
entries are met in some order, which `Library` tells. The variables are given in
the order in which they are met. The readers of other formats are left to the
library too.

Key definitions: `AgentSettings`, `LoadFault`, `Config.Library`, `AgentSettings.load`.
Key theorems: `AgentSettings.load_validate`.
-/
import QuotaWatch.Config.Decode
import QuotaWatch.Config.Environment
import QuotaWatch.Source.Path
import QuotaWatch.Toml.Reader

namespace QuotaWatch

/-- The settings of an agent. -/
structure AgentSettings where
  nodeId : String
  nodeType : String := "main"
  apiPort : UInt16 := 8080
  cgroupRoot : String := "/sys/fs/cgroup"
  monitor : Settings := {}
deriving Repr, Inhabited

/-- Why an agent cannot be configured. -/
inductive LoadFault where
  /-- The file cannot be read. -/
  | unreadable
  /-- The configuration is of another shape. -/
  | unfit
  /-- The settings of the monitor contradict themselves. -/
  | refused (f : Fault)

namespace LoadFault

/-- The fault as a text. -/
def message : LoadFault → String
  | unreadable => "Failed to read agent configuration"
  | unfit => "Invalid agent configuration"
  | refused f => f.message

end LoadFault

namespace Config

/-- What is left to the library that reads configurations. -/
structure Library where
  /-- The entries of the table at a path, in the order in which they are met. -/
  met : List String → List (String × Value) → List (String × Value)
  perm : ∀ path entries, (met path entries).Perm entries
  /-- The reader for an ending of file names, where it is neither that of TOML nor that of
  JSON and there is one. -/
  reader? : String → Option (String → Option (List (String × Value)))

namespace Library

/-- Entries are met as they are written, and there are no other readers. -/
def plain : Library where
  met _ entries := entries
  perm _ _ := .refl _
  reader? _ := none

mutual

/-- The value at a path with the entries of its tables as they are met. -/
def arrange (lib : Library) (path : List String) : Value → Value
  | .table entries => .table (lib.met path (lib.arrangeEntries path entries))
  | v => v

def arrangeEntries (lib : Library) (path : List String) :
    List (String × Value) → List (String × Value)
  | [] => []
  | (name, v) :: entries =>
    (name, lib.arrange (path ++ [name]) v) :: lib.arrangeEntries path entries

end

end Library

/-- A file with its name and what it holds. -/
structure File where
  name : String
  content : String

/-- The name of the file that is read where no other is asked for. -/
def fileName (environment : List (String × String)) : String :=
  (environment.lookup "MONITOR_CONFIG").getD "monitor-agent.toml"

/-- What a file name ends in behind its last dot; a dot at the start does not count. -/
def extension? (name : String) : Option String :=
  match (Path.pieces name.toList).getLast? with
  | none => none
  | some piece =>
    let ending := piece.reverse.takeWhile (· != '.')
    if ending.length + 1 < piece.length then some (String.ofList ending.reverse) else none

/-- What a file spells, if it can be read. -/
def File.spelled? (lib : Library) (f : File) : Option (List (String × Value)) :=
  match extension? f.name with
  | some "toml" => Toml.ofText? f.content
  | some "json" => ofJsonText? f.content
  | some ending => (lib.reader? ending).elim (some []) fun read => read f.content
  | none => some []

/-- The layer of a file, if it can be read: what it spells, in the order in which it is met. -/
def File.layer? (lib : Library) (f : File) : Option (List (String × Value)) :=
  (f.spelled? lib).map fun entries => lib.met [] (lib.arrangeEntries [] entries)

/-- The file with the environment laid over it. -/
def layered? (lib : Library) (file : Option File) (environment : List (String × String)) :
    Option Value := do
  let layer ← (file.map (File.layer? lib)).getD (some [])
  some (((Value.table []).overlay layer).overlay (environmentLayer environment))

/-- The identity of a node that has none in its configuration. -/
def defaultNodeId (environment : List (String × String)) : String :=
  (environment.lookup "NODE_ID").getD "unknown"

/-- The settings of an agent from its configuration. -/
def agentSettings? (nodeId : String) (v : Value) : Option AgentSettings := do
  some {
    nodeId := ← v.may 0 "node_id" Value.text? nodeId
    nodeType := ← v.may 1 "node_type" Value.text? "main"
    apiPort := ← v.may 2 "api_port" Value.shortWord? 8080
    cgroupRoot := ← v.may 3 "cgroup_root" Value.text? "/sys/fs/cgroup"
    monitor := ← v.may 4 "monitor" settings? {} }

end Config

namespace AgentSettings

/-- Load the settings of an agent. Its monitor settings are judged last. -/
def load (lib : Config.Library) (file : Option Config.File)
    (environment : List (String × String)) : Except LoadFault AgentSettings :=
  match Config.layered? lib file environment with
  | none => .error .unreadable
  | some value =>
    match Config.agentSettings? (Config.defaultNodeId environment) value with
    | none => .error .unfit
    | some settings =>
      match settings.monitor.validate with
      | .error f => .error (.refused f)
      | .ok () => .ok settings

/-- Settings that are loaded have monitor settings that hold. -/
theorem load_validate {lib : Config.Library} {file : Option Config.File}
    {environment : List (String × String)} {settings : AgentSettings}
    (h : load lib file environment = .ok settings) :
    settings.monitor.validate = .ok () := by
  unfold load at h
  split at h
  · cases h
  · split at h
    · cases h
    · split at h
      · cases h
      · cases h
        assumption

end AgentSettings

end QuotaWatch
