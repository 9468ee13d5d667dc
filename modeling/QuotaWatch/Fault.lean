/-
# What can go wrong

Faults of a source of figures and faults of the monitor, as causes. The wording
of each is in one place.

Key definitions: `SourceFault`, `RuleFlaw`, `ConfigFlaw`, `Fault`, `Fault.message`.
-/
import QuotaWatch.Text.Quoted
import QuotaWatch.Decimal.Layout

namespace QuotaWatch

/-- Why a source gives no figure. -/
inductive SourceFault where
  | unknownInstance (id : String)
  /-- A file or directory cannot be read. -/
  | io (path detail : String)
  | parse (what detail : String)
  | backend (detail : String)
deriving Repr, DecidableEq

namespace SourceFault

/-- Whether the source does not know the instance. -/
def isUnknownInstance : SourceFault → Bool
  | .unknownInstance _ => true
  | _ => false

def message : SourceFault → String
  | .unknownInstance id => "instance " ++ id ++ " is unknown to the backend"
  | .io path detail => "failed to read " ++ path ++ ": " ++ detail
  | .parse what detail => "failed to parse " ++ what ++ ": " ++ detail
  | .backend detail => detail

end SourceFault

/-- The lower or the upper threshold of a rule. -/
inductive Bound where
  | min
  | max
deriving Repr, DecidableEq

def Bound.label : Bound → String
  | .min => "min"
  | .max => "max"

/-- Floats in messages: always positional, a whole number without a point. -/
def messageLayout : Decimal.Layout := ⟨.upward, none, none, false⟩

/-- A float in a message. -/
def showFloat (x : Float) : String := messageLayout.write x

/-- A 64-bit word in a message. -/
def showWord (n : UInt64) : String := String.ofList (Decimal.ofNat n.toNat)

/-- What is wrong with a rule. -/
inductive RuleFlaw where
  | notFinite (bound : Bound)
  | negative (bound : Bound)
  | notBelow (min max : Float)
  /-- A relative rule for what has no known capacity. -/
  | noCapacity
  /-- The thresholds are not apart any more once they are whole numbers. -/
  | collapsed (low high : UInt64)
  | repeatedPartition
  | relativeTraffic
  | told (reason : String)
deriving Repr

def RuleFlaw.message : RuleFlaw → String
  | .notFinite bound => bound.label ++ " threshold is not a finite number"
  | .negative bound => bound.label ++ " threshold is negative"
  | .notBelow min max =>
    "min threshold " ++ showFloat min ++ " must be below max threshold " ++ showFloat max
  | .noCapacity => "relative rule without a known capacity"
  | .collapsed low high =>
    "bounds collapse to " ++ showWord low ++ ".." ++ showWord high ++ " after resolution"
  | .repeatedPartition => "duplicate partition rule"
  | .relativeTraffic => "traffic has no capacity for a relative rule"
  | .told reason => reason

/-- What is wrong with the settings of a monitor. -/
inductive ConfigFlaw where
  | zeroPollPeriod
  | zeroSendPeriod
  | zeroWindow
  | zeroBuffer
  | repeatedPartition (name : String)
  | noNodeInfo
  | told (detail : String)
deriving Repr, DecidableEq

def ConfigFlaw.message : ConfigFlaw → String
  | .zeroPollPeriod => "poll period must be greater than zero"
  | .zeroSendPeriod => "send period must be greater than zero"
  | .zeroWindow => "average window must be greater than zero"
  | .zeroBuffer => "monitoring buffer must hold at least one snapshot"
  | .repeatedPartition name => "duplicate partition " ++ name
  | .noNodeInfo => "node info provider is required"
  | .told detail => detail

/-- A fact about capacity that is asked of the host. -/
inductive CapacityFact where
  | ram
  | partition (name : String)
  | told (what : String)
deriving Repr, DecidableEq

def CapacityFact.label : CapacityFact → String
  | .ram => "total RAM"
  | .partition name => "partition " ++ name
  | .told what => what

/-- Why the monitor refuses or fails. -/
inductive Fault where
  | invalidConfig (flaw : ConfigFlaw)
  | invalidRule (parameter : String) (flaw : RuleFlaw)
  | capacityProbe (what : CapacityFact) (cause : SourceFault)
  | provider (cause : SourceFault)
  /-- The averaging window of the entity holds no reading. -/
  | noData (entity : String)
  | averagingDisabled
  | unknownInstance (id : String)
  | invalidInstanceId (id : String)
deriving Repr

namespace Fault

def message : Fault → String
  | .invalidConfig flaw => "invalid monitor configuration: " ++ flaw.message
  | .invalidRule parameter flaw => "invalid alert rule for " ++ parameter ++ ": " ++ flaw.message
  | .capacityProbe what cause =>
    "capacity probe failed for " ++ what.label ++ ": " ++ cause.message
  | .provider cause => "node provider failed: " ++ cause.message
  | .noData entity => "no averaged monitoring data for " ++ entity
  | .averagingDisabled => "averaging window is not configured"
  | .unknownInstance id => "instance " ++ id ++ " is not monitored"
  | .invalidInstanceId id => "invalid instance id " ++ Text.quoted id

/-- The fault of a source behind this one. -/
def cause : Fault → Option SourceFault
  | .capacityProbe _ cause | .provider cause => some cause
  | _ => none

end Fault

end QuotaWatch
