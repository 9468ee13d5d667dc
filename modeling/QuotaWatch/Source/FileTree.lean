/-
# File trees

Files, links and directories with their owners, and how a path is followed from
place to place in such a tree. A place remembers the directories above it, so
the whole tree can be put together again after a change at the place.

Key definitions: `FileTree`, `FileTree.Spot`, `FileTree.hop`, `FileTree.follow`.
Key theorems: `FileTree.Spot.up_down`.
-/
import QuotaWatch.Entries
import QuotaWatch.Source.Basic
import QuotaWatch.Source.Path

namespace QuotaWatch

/-- The user and the group that something belongs to. -/
structure Owner where
  uid : UInt32 := 0
  gid : UInt32 := 0
deriving Repr, DecidableEq, Inhabited

/-- What stands in a directory; `α` is what is known of the content of a file. -/
inductive FileTree (α : Type) where
  | file (owner : Owner) (content : α)
  | link (owner : Owner) (target : String)
  | directory (owner : Owner) (entries : List (String × FileTree α))
deriving Repr

namespace FileTree

instance : Inhabited (FileTree α) := ⟨.directory {} []⟩

def owner : FileTree α → Owner
  | .file owner _ | .link owner _ | .directory owner _ => owner

/-! ### Places -/

/-- A directory that was entered, with the name under which. -/
structure Entered (α : Type) where
  name : String
  owner : Owner
  entries : List (String × FileTree α)

/-- A place in a tree. -/
structure Spot (α : Type) where
  node : FileTree α
  /-- The directories above, nearest first. -/
  above : List (Entered α) := []

namespace Spot

/-- The entry of a directory, with what stands there. -/
def down (s : Spot α) (name : String) (owner : Owner) (entries : List (String × FileTree α))
    (node : FileTree α) : Spot α :=
  ⟨node, ⟨name, owner, entries⟩ :: s.above⟩

/-- The directory above, with what stands here; the top is above itself. -/
def up (s : Spot α) : Spot α :=
  match s.above with
  | [] => s
  | e :: above => ⟨.directory e.owner (put e.name s.node e.entries), above⟩

/-- The whole tree, with what stands here. -/
def whole : FileTree α → List (Entered α) → FileTree α
  | node, [] => node
  | node, e :: above => whole (.directory e.owner (put e.name node e.entries)) above

/-- The top of the tree. -/
def top (s : Spot α) : Spot α := ⟨whole s.node s.above, []⟩

/-- The way down and up again leads back. -/
theorem up_down {s : Spot α} {name : String} {owner : Owner}
    {entries : List (String × FileTree α)} {node : FileTree α}
    (here : s.node = .directory owner entries) (found : entries.lookup name = some node) :
    (s.down name owner entries node).up = s := by
  obtain ⟨_, above⟩ := s
  subst here
  simp [down, up, put_lookup found]

end Spot

/-! ### Paths -/

/-- Links that are followed on one path at most. -/
def maxLinks : Nat := 40

/-- Bytes in a name at most. -/
def maxName : Nat := 255

/-- How a path is followed. -/
structure Manner where
  /-- Whether a link at the end is followed; others always are. -/
  throughLast : Bool := false
  /-- Whether a directory that is missing is made. -/
  makes : Bool := false

/-- Follow one piece of a path, the `last` one or not, while `links` more links
may be met. The pieces that a link stands for come with the place. Two dots lead
up, and a link with a slash in front starts at the top. -/
def hop (m : Manner) (links : Nat) (spot : Spot α) (piece : List Char) (last : Bool) :
    Except IoFault (Nat × Spot α × List (List Char)) :=
  match spot.node with
  | .directory owner entries =>
    if piece == [] || piece == ['.'] then .ok (links, spot, [])
    else if piece == ['.', '.'] then .ok (links, spot.up, [])
    else
      let name := String.ofList piece
      if name.utf8ByteSize > maxName then .error .nameTooLong
      else
        match entries.lookup name with
        | none =>
          if m.makes then .ok (links, spot.down name owner entries (.directory {} []), [])
          else .error .notFound
        | some (.link linkOwner target) =>
          if last && !m.throughLast then
            .ok (links, spot.down name owner entries (.link linkOwner target), [])
          else
            match links, target.toList with
            | 0, _ => .error .tooManyLinks
            | _, [] => .error .notFound
            | links + 1, '/' :: cs => .ok (links, spot.top, Path.pieces cs)
            | links + 1, cs => .ok (links, spot, Path.pieces cs)
        | some node => .ok (links, spot.down name owner entries node, [])
  | _ => .error .notDirectory

/-- Follow the pieces of a path; the first argument after the manner bounds the
steps. -/
def follow (m : Manner) : Nat → Nat → Spot α → List (List Char) → Except IoFault (Spot α)
  | _, _, spot, [] => .ok spot
  | 0, _, _, _ :: _ => .error .tooManyLinks
  | fuel + 1, links, spot, piece :: rest =>
    match hop m links spot piece rest.isEmpty with
    | .ok (links, spot, more) => follow m fuel links spot (more ++ rest)
    | .error fault => .error fault

/-- The pieces that following a path can meet at most. -/
def bound (path : List (List Char)) : Nat := path.length + (maxLinks + 1) * 4096

/-! ### Entries of a directory -/

/-- A directory with a file of its own put in. -/
def putFile (name : String) (content : α) : FileTree α → Except IoFault (FileTree α)
  | .directory owner entries =>
    match entries.lookup name with
    | some (.directory _ _) => .error .isDirectory
    | _ => .ok (.directory owner (put name (.file {} content) entries))
  | _ => .error .alreadyThere

/-- A directory without a file; a directory of that name stays. -/
def removeFile (name : String) : FileTree α → FileTree α
  | .directory owner entries =>
    match entries.lookup name with
    | some (.directory _ _) => .directory owner entries
    | _ => .directory owner (remove name entries)
  | tree => tree

end FileTree

end QuotaWatch
