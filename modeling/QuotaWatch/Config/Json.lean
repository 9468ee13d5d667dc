/-
# Configuration values and JSON

A JSON value that can be kept whole is a configuration value. The other way a
configuration value is JSON with its entries in their order.

Assumed of the library that reads configurations: a document is an object, and
of two members of one name the later one stands.

Key definitions: `Value.ofJson`, `Value.toJson`, `ofJsonText?`.
-/
import QuotaWatch.Config.Value
import QuotaWatch.Json.Reader

namespace QuotaWatch.Config

namespace Value

/-- A number of a JSON text; a whole one beyond the signed 64-bit range becomes a float. -/
def ofNumber : Json.Number → Value
  | .unsigned n => if n.toNat < 0x8000000000000000 then .whole n.toNat else .real n.toFloat
  | .negative n => .whole n
  | .real x => .real x
  | .excessive => .nil

mutual

/-- The value of a JSON value. Of members with one name the last one stands. -/
def ofJson : Json → Value
  | .null | .broken => .nil
  | .bool b => .bool b
  | .number n => ofNumber n
  | .text s => s.elim .nil .text
  | .array items => .list (ofJsonItems items)
  | .object members => .table (ofJsonMembers members [])

def ofJsonItems : List Json → List Value
  | [] => []
  | item :: items => ofJson item :: ofJsonItems items

/-- The entries that members add to entries. -/
def ofJsonMembers : List (Option String × Json) → List (String × Value) → List (String × Value)
  | [], entries => entries
  | (none, _) :: members, entries => ofJsonMembers members entries
  | (some name, value) :: members, entries =>
    ofJsonMembers members (put name (ofJson value) entries)

end

mutual

/-- A value as JSON. -/
def toJson : Value → Json
  | .nil => .null
  | .bool b => .bool b
  | .whole n => .number (if 0 ≤ n then .unsigned (UInt64.ofNat n.toNat) else .negative n)
  | .real x => .number (.real x)
  | .text s => .text (some s)
  | .list items => .array (toJsonItems items)
  | .table entries => .object (toJsonMembers entries)

def toJsonItems : List Value → List Json
  | [] => []
  | item :: items => toJson item :: toJsonItems items

def toJsonMembers : List (String × Value) → List (Option String × Json)
  | [] => []
  | (name, value) :: entries => (some name, toJson value) :: toJsonMembers entries

end

end Value

/-- The entries of a JSON text that is one object. -/
def ofJsonText? (text : String) : Option (List (String × Value)) :=
  let j := Json.ofText text
  match j with
  | .object _ => if j.isPlain 0 then some (Value.ofJson j).entries else none
  | _ => none

end QuotaWatch.Config
