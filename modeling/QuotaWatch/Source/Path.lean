/-
# Paths

A path is a row of bytes to the operating system. Most are texts in UTF-8, but a path that
is none can be told to the monitor all the same; only a document cannot hold one. Where a
path is a text a slash separates its components.

Key definitions: `OsPath`, `OsPath.ofText`, `OsPath.text?`, `Path.join`, `Path.components`.
Key theorems: `OsPath.text?_ofText`, `OsPath.ofText_of_text?`.
-/

namespace QuotaWatch

/-- A path as the operating system has it. -/
structure OsPath where
  bytes : ByteArray
deriving Inhabited

namespace OsPath

instance : DecidableEq OsPath := fun p q =>
  decidable_of_iff (p.bytes.data = q.bytes.data)
    ⟨fun h => congrArg OsPath.mk (ByteArray.ext h), fun h => congrArg (·.bytes.data) h⟩

instance : Repr OsPath := ⟨fun p _ => repr p.bytes.data⟩

/-- The path that a text names. -/
def ofText (s : String) : OsPath := ⟨s.toUTF8⟩

instance : Coe String OsPath := ⟨ofText⟩

/-- The text that names a path, if one does. -/
def text? (p : OsPath) : Option String := String.fromUTF8? p.bytes

@[simp] theorem text?_ofText (s : String) : (ofText s).text? = some s := by
  simp only [text?, ofText, String.fromUTF8?, String.toUTF8_eq_toByteArray,
    dif_pos s.isValidUTF8]
  rfl

theorem ofText_of_text? {p : OsPath} {s : String} (h : p.text? = some s) : ofText s = p := by
  simp only [text?, String.fromUTF8?] at h
  split at h
  · cases h
    rfl
  · cases h

end OsPath

namespace Path

/-- The pieces between the slashes of a text; there is always one more than slashes. -/
def pieces : List Char → List (List Char)
  | [] => [[]]
  | '/' :: rest => [] :: pieces rest
  | c :: rest =>
    match pieces rest with
    | [] => [[c]]
    | first :: others => (c :: first) :: others

/-- A path below another one. A path that starts with a slash stands for itself. -/
def join (root path : String) : String :=
  match path.toList with
  | '/' :: _ => path
  | _ => if root.isEmpty || root.toList.getLast? == some '/' then root ++ path else root ++ "/" ++ path

/-- Pieces that name a step of a path: empty ones and single dots do not. -/
def steps (ps : List (List Char)) : List (List Char) := ps.filter fun p => p != [] && p != ['.']

/-- The components of a path: a slash for the root if it starts there, a dot
where it starts with one, and the names in order. -/
def components (path : String) : List String :=
  let ps := pieces path.toList
  let start : List (List Char) :=
    match ps with
    | [] :: _ :: _ => [['/']]
    | ['.'] :: _ => [['.']]
    | _ => []
  (start ++ steps ps).map String.ofList

end Path

end QuotaWatch
