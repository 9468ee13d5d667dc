/-
# Bytes of an owner

The lengths of the regular files below a path that belong to a user or to a
group. Links are not followed and have no length. The walk keeps the paths of
the directories still to be listed, and asks about every entry by its path.

Key definitions: `FileTree.ownedSize`, `OwnedFiles.visit`, `OwnedFiles.step`,
`OwnedFiles.run`, `OwnedFiles.used`.
-/
import QuotaWatch.Source.FileSystem

namespace QuotaWatch

/-- What is known of a file says whether it is a regular one, and of what length. -/
class HasLength (α : Type) where
  length? : α → Option UInt64

instance : HasLength UInt64 := ⟨some⟩

/-- A file that need not be a regular one: a pipe, a socket and a device are special. -/
inductive Leaf where
  | regular (length : UInt64)
  | special
deriving Repr, DecidableEq

instance : HasLength Leaf where
  length?
    | .regular length => some length
    | .special => none

namespace FileTree

/-- The length of a regular file that belongs to the user or to the group. -/
def ownedSize [HasLength α] (uid gid : UInt32) : FileTree α → UInt64
  | .file owner content =>
    if owner.uid = uid ∨ owner.gid = gid then (HasLength.length? content).getD 0 else 0
  | _ => 0

def isDirectory : FileTree α → Bool
  | .directory _ _ => true
  | _ => false

mutual

/-- The number of files, links and directories in a tree. -/
def count : FileTree α → Nat
  | .file _ _ => 1
  | .link _ _ => 1
  | .directory _ entries => countEntries entries + 1

/-- The number of files, links and directories in entries. -/
def countEntries : List (String × FileTree α) → Nat
  | [] => 0
  | (_, tree) :: rest => tree.count + countEntries rest

end

end FileTree

namespace OwnedFiles

/-- An order in which directories list their entries. -/
structure Listing where
  arrange : String → List String → List String
  perm : ∀ path names, (arrange path names).Perm names

/-- Entries come as they stand. -/
def Listing.plain : Listing := ⟨fun _ names => names, fun _ _ => .rfl⟩

/-- How sizes are added up. -/
structure Addition (N : Type) where
  of : UInt64 → N
  add : N → UInt64 → N

/-- A sum past the last word starts again at zero. -/
def Addition.wrapping : Addition UInt64 := ⟨id, (· + ·)⟩

/-- How far a walk has come. -/
structure Walk (N : Type) where
  total : N
  /-- The directories still to be listed, the next one first. -/
  pending : List String

variable [HasLength α] (sums : Addition N) (order : Listing) (fs : FileSystem α) (uid gid : UInt32)

/-- Look at an entry of a directory: a directory is to be listed, and anything
else is added up. What cannot be looked at is passed over, whatever the reason. -/
def visit (directory : String) (w : Walk N) (name : String) : Walk N :=
  let path := Path.join directory name
  match fs.find path with
  | .error _ => w
  | .ok node =>
    if node.isDirectory then { w with pending := path :: w.pending }
    else { w with total := sums.add w.total (node.ownedSize uid gid) }

/-- List the next directory. One that is gone by then is passed over. -/
def step (w : Walk N) : Except SourceFault (Walk N) :=
  match w.pending with
  | [] => .ok w
  | directory :: pending =>
    match fs.names directory with
    | .ok names =>
      let arranged := order.arrange directory names
      .ok (arranged.foldl (visit sums fs uid gid directory) { w with pending })
    | .error .notFound => .ok { w with pending }
    | .error fault => .error (.io directory fault.message)

/-- List directories until none is left; the first argument bounds the steps. -/
def run : Nat → Walk N → Except SourceFault (Walk N)
  | 0, w => .ok w
  | fuel + 1, w =>
    match w.pending with
    | [] => .ok w
    | _ :: _ =>
      match step sums order fs uid gid w with
      | .ok next => run fuel next
      | .error fault => .error fault

/-- The bytes of an owner below a path, by a way to add them up and an order of entries. -/
def usedBy (path : String) : Except SourceFault N :=
  match fs.find path with
  | .error fault => .error (.io path fault.message)
  | .ok node =>
    if node.isDirectory then
      (run sums order fs uid gid node.count ⟨sums.of 0, [path]⟩).map (·.total)
    else .ok (sums.of (node.ownedSize uid gid))

end OwnedFiles

/-- The bytes of an owner below a path. -/
def OwnedFiles.used [HasLength α] (fs : FileSystem α) (path : String) (uid gid : UInt32) :
    Except SourceFault UInt64 :=
  usedBy .wrapping .plain fs uid gid path

end QuotaWatch
