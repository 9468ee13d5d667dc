/-
# Keys

A key of a layer names a place in the configuration: a name, then further names
behind dots and indices in brackets. A key that cannot be read so is one name.

Assumed of the library that reads configurations: its keys have this grammar,
and one that is not of the grammar is taken for a name as it stands.

Key definitions: `readKey`, `Value.overlay`.
Key theorems: `Value.overlay_append`.
-/
import QuotaWatch.Config.Value
import QuotaWatch.Json.Number

namespace QuotaWatch.Config

open Value (Step)
open Json (digitRun)

/-- The characters that a name within a key is made of. -/
def isNameChar (c : Char) : Bool := c.isAlphanum || c == ' ' || c == '_' || c == '-'

/-- The name at the start of a text. -/
def readName? (cs : List Char) : Option (String × List Char) :=
  let name := cs.takeWhile isNameChar
  if name.isEmpty then none else some (String.ofList name, cs.dropWhile isNameChar)

/-- The text behind its leading spaces and tabs. -/
def skipSpaces (cs : List Char) : List Char := cs.dropWhile fun c => c == ' ' || c == '\t'

/-- Whether a whole number fits into 64 bits. -/
def isShort (n : Int) : Bool := -0x8000000000000000 ≤ n && n < 0x8000000000000000

/-- The index at the start of a text that stands behind a bracket, up to the closing one. -/
def readIndex? (cs : List Char) : Option (Int × List Char) :=
  let cs := skipSpaces cs
  let (run, rest) := digitRun (if cs.head? == some '-' then cs.drop 1 else cs)
  let n : Int := Decimal.value run
  let index := if cs.head? == some '-' then -n else n
  match skipSpaces rest with
  | ']' :: rest => if !run.isEmpty && isShort index then some (index, rest) else none
  | _ => none

/-- The steps behind the first name. The first argument bounds the recursion. -/
def readSteps? : Nat → List Char → Option (List Step)
  | _, [] => some []
  | fuel + 1, '.' :: rest => do
    let (name, rest) ← readName? rest
    (readSteps? fuel rest).map (.name name :: ·)
  | fuel + 1, '[' :: rest => do
    let (index, rest) ← readIndex? rest
    (readSteps? fuel rest).map (.index index :: ·)
  | _, _ => none

/-- The steps of a key, if it is more than one name. -/
def readKey? (key : String) : Option (List Step) := do
  let (name, rest) ← readName? key.toList
  (readSteps? rest.length rest).map (.name name :: ·)

/-- The steps that a key names. -/
def readKey (key : String) : List Step := (readKey? key).getD [.name key]

/-- Lay the values of a layer over a configuration, each at its key. -/
def Value.overlay (layer : List (String × Value)) (target : Value) : Value :=
  layer.foldl (fun target (key, value) => setAt (readKey key) value target) target

/-- Layers laid over one after the other are one layer. -/
theorem Value.overlay_append (target : Value) (first second : List (String × Value)) :
    target.overlay (first ++ second) = (target.overlay first).overlay second := by
  simp [overlay]

end QuotaWatch.Config
