/-
# Reading a TOML text

A text is read line by line: a header opens a table, and what is set below it
is set in that table.

Assumed of the library that reads TOML: it reads version 1.0 of the format,
with fewer containers in each other than a limit, and hands dates and times on
as texts. The modules on its numbers, strings and tables assume no more of it.

Key definitions: `readKey?`, `readValue?`, `Draft`, `ofText?`.
-/
import QuotaWatch.Toml.Moment
import QuotaWatch.Toml.Number
import QuotaWatch.Toml.Table
import QuotaWatch.Toml.Text

namespace QuotaWatch.Toml

open Config (Value)

/-! ### Keys -/

/-- The characters of a name without quotes. -/
def isBare (c : Char) : Bool := c.isAlphanum || c == '_' || c == '-'

/-- The name at the start of a text. -/
def readName? (cs : List Char) : Option (String × List Char) :=
  match cs with
  | '"' :: rest => (readQuoted? (rest.length + 1) rest).map fun (cs, rest) => (String.ofList cs, rest)
  | '\'' :: rest => (readLiteral? rest).map fun (cs, rest) => (String.ofList cs, rest)
  | cs =>
    let name := cs.takeWhile isBare
    if name.isEmpty then none else some (String.ofList name, cs.dropWhile isBare)

/-- The names of a dotted key, with blanks around each. The first argument
bounds the recursion. -/
def readNames? : Nat → List Char → Option (List String × List Char)
  | 0, _ => none
  | fuel + 1, cs => do
    let (name, rest) ← readName? (skipGaps cs)
    match skipGaps rest with
    | '.' :: rest => do
      let (names, rest) ← readNames? fuel rest
      some (name :: names, rest)
    | rest => some ([name], rest)

/-- Keys have fewer names, and values fewer containers around them, than this. -/
def depthLimit : Nat := 80

/-- A key: the names on the way and the last one. -/
def readKey? (cs : List Char) : Option ((List String × String) × List Char) := do
  let (names, rest) ← readNames? (cs.length + 1) cs
  if names.length < depthLimit then some ((names.dropLast, ← names.getLast?), rest) else none

/-! ### Values -/

/-- The text behind blanks, ends of lines and comments. -/
def skipFiller (inComment : Bool) : List Char → List Char
  | [] => []
  | '\r' :: '\n' :: rest => skipFiller false rest
  | c :: rest =>
    if c == '\n' then skipFiller false rest
    else if inComment then (if isPlain c then skipFiller true rest else c :: rest)
    else if isGap c then skipFiller false rest
    else if c == '#' then skipFiller true rest
    else c :: rest

/-- The characters of a switch or a number. -/
def isWordChar (c : Char) : Bool :=
  c.isAlphanum || c == '_' || c == '-' || c == '+' || c == '.' || c == ':'

/-- A value that is no container. -/
def readScalar? (cs : List Char) : Option (Value × List Char) :=
  match (readString? cs).or (readMoment? cs) with
  | some (s, rest) => some (.text s, rest)
  | none =>
    let word := cs.takeWhile isWordChar
    let value :=
      if word == ['t', 'r', 'u', 'e'] then some (.bool true)
      else if word == ['f', 'a', 'l', 's', 'e'] then some (.bool false)
      else readNumber? word
    value.map fun v => (v, cs.dropWhile isWordChar)

/-- The values of a list behind its bracket, given a reader of values. The
first argument bounds the recursion. -/
def readItems? (value : List Char → Option (Value × List Char)) :
    Nat → List Char → Option (List Value × List Char)
  | 0, _ => none
  | fuel + 1, cs =>
    match skipFiller false cs with
    | ']' :: rest => some ([], rest)
    | cs => do
      let (v, rest) ← value cs
      match skipFiller false rest with
      | ']' :: rest => some ([v], rest)
      | ',' :: rest => do
        let (vs, rest) ← readItems? value fuel rest
        some (v :: vs, rest)
      | _ => none

/-- A key and its value with the equals sign between them. -/
def readPair? (value : List Char → Option (Value × List Char)) (cs : List Char) :
    Option ((List String × String × Value) × List Char) := do
  let ((path, name), rest) ← readKey? cs
  match rest with
  | '=' :: rest => do
    let (v, rest) ← value (skipGaps rest)
    some ((path, name, v), rest)
  | _ => none

/-- The pairs of a table on one line, at least one, added to entries. The first
argument bounds the recursion. -/
def readPairs? (value : List Char → Option (Value × List Char)) :
    Nat → Entries → List Char → Option (Entries × List Char)
  | 0, _, _ => none
  | fuel + 1, entries, cs => do
    let ((path, name, v), rest) ← readPair? value cs
    let entries ← Node.insert? path name v .header entries
    match skipGaps rest with
    | '}' :: rest => some (entries, rest)
    | ',' :: rest => readPairs? value fuel entries rest
    | _ => none

/-- The value at the start of a text with at most so many containers. -/
def readValue? : Nat → List Char → Option (Value × List Char)
  | 0, '[' :: _ => none
  | 0, '{' :: _ => none
  | depth + 1, '[' :: rest => do
    let (items, rest) ← readItems? (readValue? depth) (rest.length + 1) rest
    some (.list items, rest)
  | depth + 1, '{' :: rest =>
    match skipGaps rest with
    | '}' :: rest => some (.table [], rest)
    | rest => do
      let (entries, rest) ← readPairs? (readValue? depth) (rest.length + 1) [] rest
      some (.table (Node.toEntries entries), rest)
  | _, cs => readScalar? cs

/-! ### Lines -/

/-- The text behind the end of a line that holds nothing more than a comment. -/
def endLine? (cs : List Char) : Option (List Char) :=
  let rest :=
    match skipGaps cs with
    | '#' :: rest => rest.dropWhile isPlain
    | rest => rest
  match rest with
  | [] => some []
  | rest => lineBreak? rest

/-- A document that is being read. -/
structure Draft where
  entries : Entries := []
  /-- The path of the table that was opened last. -/
  current : List String := []

/-- Set a value in the table that was opened last. -/
def Draft.set? (d : Draft) (path : List String) (name : String) (v : Value) : Option Draft :=
  (Node.within? .implied (Node.insert? path name v) d.current .header d.entries).map fun entries =>
    { d with entries }

/-- Read a line that is not blank, up to its end. -/
def Draft.readLine? (d : Draft) (cs : List Char) : Option (Draft × List Char) :=
  match cs with
  | '[' :: '[' :: rest => do
    let ((path, name), rest) ← readKey? rest
    match rest with
    | ']' :: ']' :: rest => do
      some (⟨← Node.openItem? path name d.entries, path ++ [name]⟩, rest)
    | _ => none
  | '[' :: rest => do
    let ((path, name), rest) ← readKey? rest
    match rest with
    | ']' :: rest => do some (⟨← Node.openTable? path name d.entries, path ++ [name]⟩, rest)
    | _ => none
  | cs => do
    let ((path, name, v), rest) ← readPair? (readValue? (depthLimit - 1)) cs
    some (← d.set? path name v, rest)

/-- Read the lines up to the end of the text. The first argument bounds the recursion. -/
def Draft.readLines? : Nat → Draft → List Char → Option Draft
  | 0, _, _ => none
  | fuel + 1, d, cs =>
    match skipFiller false cs with
    | [] => some d
    | cs => do
      let (d, rest) ← d.readLine? cs
      readLines? fuel d (← endLine? rest)

/-- The text behind a byte order mark. -/
def skipMark : List Char → List Char
  | '\ufeff' :: rest => rest
  | cs => cs

/-- The entries of a TOML text. -/
def ofText? (text : String) : Option (List (String × Value)) :=
  let cs := skipMark text.toList
  (Draft.readLines? (cs.length + 1) {} cs).map fun d => Node.toEntries d.entries

end QuotaWatch.Toml
