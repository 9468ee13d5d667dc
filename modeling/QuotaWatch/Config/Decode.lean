/-
# Decoding a configuration

Plain values are taken leniently: a number may be written as a text and a text
as a number, as the environment leaves no choice. Rules are taken as documents
of rules are. A record is a table, with other names passed over, or a list of
its fields in order; nil stands for an optional value that is not there.

Assumed of the library that reads configurations: plain values turn into each
other in these ways and in no others, and a rule, which tells its kind, is
handed on as it stands.

Key definitions: `Value.text?`, `Value.word?`, `Value.field?`, `settings?`.
Key theorems: `Value.text?_text`.
-/
import QuotaWatch.Config.Json
import QuotaWatch.Decimal.Reader
import QuotaWatch.Document.Rule
import QuotaWatch.Settings

namespace QuotaWatch.Config

namespace Value

/-! ### Plain values -/

/-- A value without what it holds where it is a table. -/
def bare : Value → Value
  | .table _ => .table []
  | v => v

/-- A value as a text. -/
def text? : Value → Option String
  | .text s => some s
  | .bool b => some (if b then "true" else "false")
  | .whole n => some (String.ofList (Decimal.ofInt n))
  | .real x => some (showFloat x)
  | _ => none

/-- The word that a text stands for: a switch, or digits. -/
def readWord? (s : String) : Option UInt64 :=
  let lowered := s.toLower
  if lowered ∈ ["true", "on", "yes"] then some 1
  else if lowered ∈ ["false", "off", "no"] then some 0
  else
    let cs := s.toList
    let digits := if cs.head? == some '+' then cs.drop 1 else cs
    ((Decimal.readNat? digits).filter (· ≤ Decimal.maxWord)).map UInt64.ofNat

/-- A value as a 64-bit word. -/
def word? : Value → Option UInt64
  | .whole n => if 0 ≤ n then some (UInt64.ofNat n.toNat) else none
  | .real x => some (Decimal.nearestWord x)
  | .bool b => some (if b then 1 else 0)
  | .text s => readWord? s
  | _ => none

/-- A value as a 16-bit word. -/
def shortWord? (v : Value) : Option UInt16 :=
  (v.word?.filter (·.toNat < UInt16.size)).map UInt64.toUInt16

/-- A value that may be nil. -/
def maybe? (f : Value → Option α) : Value → Option (Option α)
  | .nil => some none
  | v => (f v).map some

/-- The values of a list. -/
def list? (f : Value → Option α) : Value → Option (List α)
  | .list items => items.mapM f
  | _ => none

/-! ### Records -/

/-- Whether a value can be read as a record. -/
def isRecord : Value → Bool
  | .table _ | .list _ => true
  | _ => false

/-- The field with this place and this name of a record. -/
def field? (place : Nat) (name : String) : Value → Option Value
  | .table entries => entries.lookup name
  | .list items => items[place]?
  | _ => none

/-- A field that must be there. -/
def need (v : Value) (place : Nat) (name : String) (f : Value → Option α) : Option α :=
  (v.field? place name).bind f

/-- A field that has a value where it is absent. -/
def may (v : Value) (place : Nat) (name : String) (f : Value → Option α) (absent : α) : Option α :=
  match v.field? place name with
  | some field => f field
  | none => if v.isRecord then some absent else none

/-- A text is taken as it is. -/
theorem text?_text (s : String) : (Value.text s).text? = some s := rfl

end Value

open Value

/-! ### Rules -/

/-- The names of the members of a rule. -/
def ruleNames : List String := ["kind", "min_timeout_ms", "min_threshold", "max_threshold"]

/-- The members of a rule among entries. None of them is a table, so nothing is read of one. -/
def ruleMembers (entries : List (String × Value)) : List (Option String × Json) :=
  ruleNames.filterMap fun name => (entries.lookup name).map fun v => (some name, v.bare.toJson)

/-- A rule, by the letter of its document, with other names passed over. -/
def rule? : Value → Option Rule
  | .table entries => (Rule.decode {} (.object (ruleMembers entries))).toOption
  | v => (Rule.decode {} v.toJson).toOption

/-- The rule of a named partition: the name stands among the members of the rule. -/
def partitionRule? : Value → Option PartitionRule
  | .table entries => do
    let name ← (entries.lookup "name").bind text?
    let rule ← rule? (.table (entries.filter (·.1 != "name")))
    some ⟨name, rule⟩
  | _ => none

def ruleSet? (v : Value) : Option RuleSet := do
  some {
    cpu := ← v.may 0 "cpu" (maybe? rule?) none
    ram := ← v.may 1 "ram" (maybe? rule?) none
    partitions := ← v.may 2 "partitions" (list? partitionRule?) []
    inTraffic := ← v.may 3 "in_traffic" (maybe? rule?) none
    outTraffic := ← v.may 4 "out_traffic" (maybe? rule?) none }

/-! ### Settings -/

def partitionChoice? (v : Value) : Option PartitionChoice := do
  some {
    name := ← v.need 0 "name" text?
    types := ← v.may 1 "types" (list? text?) []
    path := ← v.need 2 "path" fun field => (text? field).map .ofText }

/-- The settings of a monitor. -/
def settings? (v : Value) : Option Settings := do
  some {
    pollPeriod := .ofMillis (← v.may 0 "poll_period_ms" word? 1000)
    sendPeriod := (← v.may 1 "send_period_ms" (maybe? word?) none).map .ofMillis
    window := (← v.may 2 "average_window_ms" (maybe? word?) none).map .ofMillis
    partitions := ← v.may 3 "partitions" (list? partitionChoice?) []
    rules := ← v.may 4 "alert_rules" (maybe? ruleSet?) none
    buffer := ← v.may 5 "monitoring_buffer" word? 16 }

end QuotaWatch.Config
