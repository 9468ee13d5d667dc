/-
# Tables of a TOML document

While a document is read it matters how a table came to be: by a header of its
own, as a step on the way to another header, or by a dotted key. A table gets
one header at most, dotted keys only add to tables made by dotted keys, and no
entry is set twice.

Key definitions: `Node`, `Node.insert?`, `Node.openTable?`, `Node.openItem?`,
`Node.toValue`.
-/
import QuotaWatch.Config.Value

namespace QuotaWatch.Toml

open Config (Value)

/-- How a table came to be. -/
inductive Origin where
  | header
  /-- On the way to another header. -/
  | implied
  | dotted
deriving Repr, DecidableEq

/-- An entry of a table that is being read. -/
inductive Node where
  /-- A value as written, which nothing can be added to. -/
  | value (v : Value)
  | table (origin : Origin) (entries : List (String × Node))
  /-- A list of tables, each with a header of its own. -/
  | tables (items : List (List (String × Node)))
deriving Inhabited

/-- The entries of a table that is being read. -/
abbrev Entries := List (String × Node)

namespace Node

/-- Change the entry of a name, or make one. -/
def change? (name : String) (f : Option Node → Option Node) : Entries → Option Entries
  | [] => (f none).map fun node => [(name, node)]
  | (other, node) :: entries =>
    if other = name then (f (some node)).map fun node => (name, node) :: entries
    else (change? name f entries).map ((other, node) :: ·)

/-- Change the table at the end of a path, with new tables made on the way. Of
a list of tables the last one is meant. Dotted keys do not step into a table
that has a header. -/
def within? (made : Origin) (f : Origin → Entries → Option Entries) :
    List String → Origin → Entries → Option Entries
  | [], origin, entries => f origin entries
  | name :: path, _, entries =>
    change? name (fun
      | none => (within? made f path made []).map (.table made)
      | some (.value _) => none
      | some (.table origin inner) =>
        if made = .dotted ∧ origin = .header then none
        else (within? made f path origin inner).map (.table origin)
      | some (.tables items) => do
        let last ← items.getLast?
        let last ← within? made f path .header last
        some (.tables (items.dropLast ++ [last]))) entries

/-- Set a value at a dotted key, in a table. -/
def insert? (path : List String) (name : String) (v : Value) (origin : Origin) (entries : Entries) :
    Option Entries :=
  within? .dotted (fun origin entries =>
    if path.isEmpty = (origin == .dotted) then none
    else change? name (fun old => if old.isSome then none else some (.value v)) entries)
    path origin entries

/-- Open the table of a header. -/
def openTable? (path : List String) (name : String) (entries : Entries) : Option Entries :=
  within? .implied (fun _ entries =>
    change? name (fun
      | none => some (.table .header [])
      | some (.table .implied inner) => some (.table .header inner)
      | some _ => none) entries)
    path .header entries

/-- Open another table in the list of a header. -/
def openItem? (path : List String) (name : String) (entries : Entries) : Option Entries :=
  within? .implied (fun _ entries =>
    change? name (fun
      | none => some (.tables [[]])
      | some (.tables items) => some (.tables (items ++ [[]]))
      | some _ => none) entries)
    path .header entries

mutual

/-- An entry as a value. -/
def toValue : Node → Value
  | .value v => v
  | .table _ entries => .table (toEntries entries)
  | .tables items => .list (toItems items)

def toEntries : List (String × Node) → List (String × Value)
  | [] => []
  | (name, node) :: entries => (name, toValue node) :: toEntries entries

def toItems : List (List (String × Node)) → List Value
  | [] => []
  | entries :: items => .table (toEntries entries) :: toItems items

end

end Node

end QuotaWatch.Toml
