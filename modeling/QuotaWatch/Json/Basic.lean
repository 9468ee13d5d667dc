/-
# JSON values

A value as it stands in a text, also in a text that stops being JSON: where
the text breaks off the tree has a `broken` node, and a string that is no text
(half of a surrogate pair) or a number beyond the floats keeps its place. So a
decoder meets what is wrong with a document in the order of the text, and what
it passes over does no harm.

Key definitions: `Json`, `Json.isIntact`, `Json.isPlain`.
Key theorems: `Json.isIntact_of_isPlain`.
-/

namespace QuotaWatch

/-- A number of a JSON text. -/
inductive Json.Number where
  | unsigned (n : UInt64)
  /-- A whole number below zero, within 64 bits. -/
  | negative (n : Int)
  | real (x : Float)
  /-- A number beyond the largest float. -/
  | excessive
deriving Repr, Inhabited

/-- A value of a JSON text. -/
inductive Json where
  | null
  | bool (b : Bool)
  | number (n : Json.Number)
  /-- A string, unless it holds half of a surrogate pair. -/
  | text (s : Option String)
  | array (items : List Json)
  /-- Names and values in the order of the text, repeated names included. -/
  | object (members : List (Option String × Json))
  /-- The place where the text stops being JSON. -/
  | broken
deriving Repr, Inhabited

namespace Json

/-- A string value. -/
def ofString (s : String) : Json := .text (some s)

/-- A whole number. -/
def ofWord (n : UInt64) : Json := .number (.unsigned n)

/-- A number with a fraction. -/
def ofFloat (x : Float) : Json := .number (.real x)

/-- A list of values. -/
def ofList (f : α → Json) (items : List α) : Json := .array (items.map f)

/-- A value, or `null`. -/
def ofOption (f : α → Json) : Option α → Json
  | none => .null
  | some a => f a

/-- One named value. -/
def member (name : String) (value : Json) : Option String × Json := (some name, value)

/-- A named value that is left out where there is none. -/
def member? (name : String) (f : α → Json) : Option α → List (Option String × Json)
  | none => []
  | some a => [member name (f a)]

mutual

/-- Whether a value is JSON to its end. -/
def isIntact : Json → Bool
  | .broken => false
  | .array items => allIntact items
  | .object members => membersIntact members
  | _ => true

/-- Whether all values of a list are JSON to their end. -/
def allIntact : List Json → Bool
  | [] => true
  | item :: items => item.isIntact && allIntact items

/-- Whether all named values of a list are JSON to their end. -/
def membersIntact : List (Option String × Json) → Bool
  | [] => true
  | (_, value) :: members => value.isIntact && membersIntact members

end

/-- Containers may stand within each other this deep where a value is kept whole. -/
def maxDepth : Nat := 127

mutual

/-- Whether a value within `depth` containers can be kept whole: JSON to its
end, every string a text, every number a float, and not too deep. -/
def isPlain (depth : Nat) : Json → Bool
  | .null | .bool _ => true
  | .number .excessive => false
  | .number _ => true
  | .text s => s.isSome
  | .array items => depth < maxDepth && allPlain (depth + 1) items
  | .object members => depth < maxDepth && membersPlain (depth + 1) members
  | .broken => false

/-- Whether all values of a list can be kept whole. -/
def allPlain (depth : Nat) : List Json → Bool
  | [] => true
  | item :: items => item.isPlain depth && allPlain depth items

/-- Whether all members of a list can be kept whole. -/
def membersPlain (depth : Nat) : List (Option String × Json) → Bool
  | [] => true
  | (name, value) :: members => name.isSome && value.isPlain depth && membersPlain depth members

end

mutual

/-- A value that can be kept whole is JSON to its end. -/
theorem isIntact_of_isPlain : ∀ (depth : Nat) (j : Json), j.isPlain depth = true → j.isIntact = true
  | _, .null, _ | _, .bool _, _ | _, .text _, _ | _, .number _, _ => by simp [isIntact]
  | d, .array items, h => by
    simp only [isPlain, Bool.and_eq_true] at h
    simpa [isIntact] using allIntact_of_allPlain (d + 1) items h.2
  | d, .object members, h => by
    simp only [isPlain, Bool.and_eq_true] at h
    simpa [isIntact] using membersIntact_of_membersPlain (d + 1) members h.2
  | _, .broken, h => by simp [isPlain] at h

theorem allIntact_of_allPlain :
    ∀ (depth : Nat) (items : List Json), allPlain depth items = true → allIntact items = true
  | _, [], _ => by simp [allIntact]
  | d, item :: items, h => by
    simp only [allPlain, Bool.and_eq_true] at h
    simp [allIntact, isIntact_of_isPlain d item h.1, allIntact_of_allPlain d items h.2]

theorem membersIntact_of_membersPlain : ∀ (depth : Nat) (members : List (Option String × Json)),
    membersPlain depth members = true → membersIntact members = true
  | _, [], _ => by simp [membersIntact]
  | d, (_, value) :: members, h => by
    simp only [membersPlain, Bool.and_eq_true] at h
    simp [membersIntact, isIntact_of_isPlain d value h.1.2, membersIntact_of_membersPlain d members h.2]

end

end Json

end QuotaWatch
