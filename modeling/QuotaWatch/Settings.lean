/-
# Settings of a monitor and of an instance

Key definitions: `Settings`, `Settings.validate`, `Settings.isCombined`, `InstanceParams`.
-/
import QuotaWatch.Alert.RuleSet
import QuotaWatch.Source.Path

namespace QuotaWatch

open Time

/-- A partition of the node that is to be measured. -/
structure PartitionChoice where
  name : String
  types : List String := []
  path : OsPath
deriving Repr, DecidableEq, Inhabited

/-- The settings of a monitor. -/
structure Settings where
  pollPeriod : Span := .ofMillis 1000
  /-- The time between snapshots; without it there is one after every poll. -/
  sendPeriod : Option Span := none
  /-- The retention of the averaging windows; without it there are none. -/
  window : Option Span := none
  /-- The partitions to measure; with none given they are those of the node info. -/
  partitions : List PartitionChoice := []
  /-- The rules of the node where its settings bring none. -/
  rules : Option RuleSet := none
  /-- The number of snapshots that the built-in queue holds. -/
  buffer : UInt64 := 16
deriving Repr, Inhabited

namespace Settings

/-- The first name that a list gives a second time. -/
def repeatedName (seen : List String) : List String → Option String
  | [] => none
  | name :: names => if name ∈ seen then some name else repeatedName (name :: seen) names

/-- What is wrong with the settings, the rules apart. -/
def flaw (s : Settings) : Option ConfigFlaw :=
  if s.pollPeriod == .zero then some .zeroPollPeriod
  else if s.sendPeriod == some .zero then some .zeroSendPeriod
  else if s.window == some .zero then some .zeroWindow
  else if s.buffer == 0 then some .zeroBuffer
  else (repeatedName [] (s.partitions.map (·.name))).map .repeatedPartition

/-- Judge the settings, the rules last. -/
def validate (s : Settings) : Except Fault Unit :=
  match s.flaw with
  | some flaw => .error (.invalidConfig flaw)
  | none =>
    match s.rules with
    | some rules => rules.validate
    | none => .ok ()

/-- Whether every poll is followed by a snapshot. -/
def isCombined (s : Settings) : Bool := s.sendPeriod.all (· == s.pollPeriod)

/-- The time between snapshots. -/
def sendEvery (s : Settings) : Span := s.sendPeriod.getD s.pollPeriod

end Settings

/-- A partition that an instance is measured on. -/
structure WatchedPartition where
  name : String
  path : OsPath
deriving Repr, DecidableEq, Inhabited

/-- What an instance is registered with. -/
structure InstanceParams where
  ident : Ident
  uid : UInt32 := 0
  gid : UInt32 := 0
  rules : Option RuleSet := none
  partitions : List WatchedPartition := []
deriving Repr, Inhabited

end QuotaWatch
