/-
# File systems

A file tree together with the directory where paths start that do not start at
its top.

Key definitions: `FileSystem`, `FileSystem.find`, `FileSystem.names`,
`FileSystem.readText`, `FileSystem.change`, `FileSystem.removeTree`.
Key theorems: `FileSystem.find_zero`.
-/
import QuotaWatch.Source.FileTree

namespace QuotaWatch

/-- A file tree with the path of a directory in it. -/
structure FileSystem (α : Type) where
  tree : FileTree α
  /-- Where paths start that do not start with a slash. -/
  base : String := "/"

namespace FileSystem

open FileTree (Manner Spot)

/-- Bytes in a path from the top at most. -/
def maxPath : Nat := 4095

/-- The place that a path leads to; the empty one leads nowhere. -/
def resolve (fs : FileSystem α) (m : Manner) (path : String) : Except IoFault (Spot α) :=
  let full := Path.join fs.base path
  if '\x00' ∈ path.toList then .error .zeroInPath
  else if path.isEmpty then .error .notFound
  else if maxPath < full.utf8ByteSize then .error .nameTooLong
  else
    let ps := Path.pieces full.toList
    FileTree.follow m (FileTree.bound ps) FileTree.maxLinks ⟨fs.tree, []⟩ ps

/-- What a path leads to; a link at its end is not followed. -/
def find (fs : FileSystem α) (path : String) : Except IoFault (FileTree α) :=
  (fs.resolve {} path).map (·.node)

/-- What a path leads to through links. -/
def findThrough (fs : FileSystem α) (path : String) : Except IoFault (FileTree α) :=
  (fs.resolve { throughLast := true } path).map (·.node)

/-- The names in the directory that a path leads to. -/
def names (fs : FileSystem α) (path : String) : Except IoFault (List String) := do
  match ← fs.findThrough path with
  | .directory _ entries => .ok (entries.map (·.1))
  | _ => .error .notDirectory

/-- The text in a file. -/
def readText (fs : FileSystem ByteArray) (path : String) : Except IoFault String := do
  match ← fs.findThrough path with
  | .file _ bytes =>
    match String.fromUTF8? bytes with
    | some text => .ok text
    | none => .error .notText
  | .directory _ _ => .error .isDirectory
  | .link _ _ => .error .notFound

/-- Change what a path leads to; directories that are missing on the way are made. -/
def change (fs : FileSystem α) (path : String) (f : FileTree α → Except IoFault (FileTree α)) :
    Except IoFault (FileSystem α) := do
  let spot ← fs.resolve { throughLast := true, makes := true } path
  let node ← f spot.node
  .ok { fs with tree := Spot.whole node spot.above }

/-- The file system without the directory or the link that a path leads to. -/
def removeTree (fs : FileSystem α) (path : String) : FileSystem α :=
  match fs.resolve {} path with
  | .ok ⟨.directory _ _, e :: above⟩ | .ok ⟨.link _ _, e :: above⟩ =>
    { fs with tree := Spot.whole (.directory e.owner (remove e.name e.entries)) above }
  | _ => fs

/-- No path has a zero character in it. -/
theorem find_zero (fs : FileSystem α) {path : String} (h : '\x00' ∈ path.toList) :
    fs.find path = .error .zeroInPath := by
  simp [find, resolve, h, Except.map]

end FileSystem

end QuotaWatch
