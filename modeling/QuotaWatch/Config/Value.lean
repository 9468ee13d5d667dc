/-
# Configuration values

What a configuration is made of before it is decoded: a tree of tables and
lists over plain values. Layers are laid over each other entry by entry, so a
later layer replaces what it names and leaves the rest. The tables that entries
are laid into have names in small letters; a list is laid over as it is.

Assumed of the library that reads configurations: a table is laid over an entry
by entry and makes names small as it goes; anything else takes the place of
what was there; and an index past the end of a list lengthens it with nil.

Key definitions: `Value`, `Value.assign`, `Value.setAt`, `Value.at?`.
Key theorems: `Value.assign_plain`.
-/
import QuotaWatch.Entries
import QuotaWatch.Text.Lower

namespace QuotaWatch.Config

/-- A value of a configuration. -/
inductive Value where
  | nil
  | bool (b : Bool)
  | whole (n : Int)
  | real (x : Float)
  | text (s : String)
  | list (items : List Value)
  | table (entries : List (String × Value))
deriving Repr, Inhabited

namespace Value

/-- The entries of a table; anything else has none. -/
def entries : Value → List (String × Value)
  | .table entries => entries
  | _ => []

/-- The items of a list; anything else has none. -/
def items : Value → List Value
  | .list items => items
  | _ => []

mutual

/-- Lay a value over the entry of a name, in small letters. A table is laid
over it entry by entry, anything else takes its place. What has no entries
becomes a table. -/
def assign (name : String) : Value → Value → Value
  | .table incoming, target =>
    let old := (target.entries.lookup (Text.lower name)).getD (.table [])
    .table (put (Text.lower name) (assignAll incoming old) target.entries)
  | value, target => .table (put (Text.lower name) value target.entries)

/-- Lay entries over a value in order. -/
def assignAll : List (String × Value) → Value → Value
  | [], target => target
  | (name, value) :: incoming, target => assignAll incoming (assign name value target)

end

/-- A step into a value. -/
inductive Step where
  | name (s : String)
  /-- A place in a list; below zero it counts from the end. -/
  | index (i : Int)
deriving Repr, DecidableEq

/-- The place that an index names among so many items. -/
def place (index : Int) (length : Nat) : Nat :=
  if 0 ≤ index then index.toNat else length - index.natAbs

/-- Items up to a place, with nil where there are too few. -/
def padTo (place : Nat) (items : List Value) : List Value :=
  items ++ List.replicate (place + 1 - items.length) .nil

/-- Lay a value over the place at the end of the steps. On the way there
whatever cannot be stepped into is replaced by what can. -/
def setAt : List Step → Value → Value → Value
  | [], value, _ => value
  | [.name name], value, target => assign name value target
  | .name name :: steps, value, target =>
    let old := (target.entries.lookup (Text.lower name)).getD .nil
    .table (put (Text.lower name) (setAt steps value old) target.entries)
  | .index index :: steps, value, target =>
    let k := place index target.items.length
    let items := padTo k target.items
    .list (items.set k (setAt steps value (items.getD k .nil)))

/-- The value at the end of the names, each stepping into a table. -/
def at? : List String → Value → Option Value
  | [], value => some value
  | name :: names, value => (value.entries.lookup name).bind (at? names)

/-- A value that is no table takes the place of the entry. -/
theorem assign_plain (name : String) {value : Value} (target : Value)
    (h : ∀ entries, value ≠ .table entries) :
    assign name value target = .table (put (Text.lower name) value target.entries) := by
  cases value with
  | table entries => exact absurd rfl (h entries)
  | _ => simp [assign]

end Value

end QuotaWatch.Config
