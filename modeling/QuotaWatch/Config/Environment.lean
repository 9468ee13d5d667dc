/-
# Variables of the environment

The variables whose name starts with the mark of the agent are a layer of the
configuration: the rest of the name, in small letters and with pairs of
underscores for dots, is a key, and the text is a value of the first kind that
it can be read as.

Assumed of the library that reads configurations: it makes a name small before
it looks for the mark, and tries truth values, whole numbers and floats in this
order on every text.

Key definitions: `keyOf?`, `ofText`, `environmentLayer`.
Key theorems: `keyOf?_other`.
-/
import QuotaWatch.Config.Key
import QuotaWatch.Decimal.Reader

namespace QuotaWatch.Config

/-- What the names of the agent's variables start with, in small letters. -/
def variableMark : List Char := ['a', 'g', 'e', 'n', 't', '_']

/-- Dots for pairs of underscores. -/
def dotPairs : List Char → List Char
  | '_' :: '_' :: rest => '.' :: dotPairs rest
  | c :: rest => c :: dotPairs rest
  | [] => []

/-- The key that the name of a variable stands for, if it is one of the agent's. -/
def keyOf? (name : String) : Option String :=
  let cs := (Text.lower name).toList
  if variableMark.isPrefixOf cs then
    some (String.ofList (dotPairs (cs.drop variableMark.length)))
  else none

/-- A whole number with an optional sign that fits into 64 bits. -/
def readWhole? (s : String) : Option Int := do
  let (isBelow, digits) := Decimal.splitSign s.toList
  let n : Int ← (Decimal.readNat? digits).map Int.ofNat
  (some (if isBelow then -n else n)).filter isShort

/-- The value that a text stands for: a truth value, a whole number, a float,
or else the text. -/
def ofText (s : String) : Value :=
  let lowered := s.toLower
  if lowered == "true" then .bool true
  else if lowered == "false" then .bool false
  else
    match readWhole? s with
    | some n => .whole n
    | none =>
      match Decimal.readFloat? s with
      | some x => .real x
      | none => .text s

/-- The layer of the environment. -/
def environmentLayer (environment : List (String × String)) : List (String × Value) :=
  environment.filterMap fun (name, text) => (keyOf? name).map fun key => (key, ofText text)

/-- Other variables have no part in the layer. -/
theorem keyOf?_other {name : String} (h : variableMark.isPrefixOf (Text.lower name).toList = false) :
    keyOf? name = none := by
  simp [keyOf?, h]

end QuotaWatch.Config
