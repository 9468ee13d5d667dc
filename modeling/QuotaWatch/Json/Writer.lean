/-
# Writing JSON

The compact form: no blanks, members in their order, short escapes where JSON
has them, and floats with the fewest digits and always a point or an exponent. A value with
a string that is no text cannot be written.

Assumed of the library that writes JSON: a float is written with the fewest
digits that are read back as it, and what is not finite as `null`.

Key definitions: `Json.write`, `Json.toText`, `Json.isText`, `Json.toText?`, `documentLayout`.
-/
import QuotaWatch.Json.Basic
import QuotaWatch.Decimal.Layout

namespace QuotaWatch.Json

open Decimal

/-- Floats in documents: positional from `1e-5` up to below `1e16`, a zero
behind the point of a whole number, a tie to the even digit. -/
def documentLayout : Layout := ⟨.toEven, some (-5), some 16, true⟩

/-- A character of a string. -/
def writeChar (c : Char) : List Char :=
  if c == '"' || c == '\\' then ['\\', c]
  else if c == '\x08' then ['\\', 'b']
  else if c == '\x0c' then ['\\', 'f']
  else if c == '\n' then ['\\', 'n']
  else if c == '\r' then ['\\', 'r']
  else if c == '\t' then ['\\', 't']
  else if c.toNat < 32 then
    ['\\', 'u', '0', '0', Nat.digitChar (c.toNat / 16), Nat.digitChar (c.toNat % 16)]
  else [c]

/-- A string between its quotes. -/
def writeString (s : String) : List Char := '"' :: s.toList.flatMap writeChar ++ ['"']

/-- The word that stands for no value. -/
def nullWord : List Char := ['n', 'u', 'l', 'l']

/-- A number; what is not finite has no number in JSON and is written as `null`. -/
def Number.write : Number → List Char
  | .unsigned n => Decimal.ofNat n.toNat
  | .negative n => ofInt n
  | .real x => if x.isFinite then (documentLayout.write x).toList else nullWord
  | .excessive => nullWord

mutual

/-- A value in the compact form. -/
def write : Json → List Char
  | .null => nullWord
  | .bool true => ['t', 'r', 'u', 'e']
  | .bool false => ['f', 'a', 'l', 's', 'e']
  | .number n => n.write
  | .text s => writeString (s.getD "")
  | .array [] => ['[', ']']
  | .array (item :: items) => '[' :: (item.write ++ writeItems items)
  | .object [] => ['\x7b', '\x7d']
  | .object ((name, value) :: members) =>
    '\x7b' :: (writeString (name.getD "") ++ ':' :: (value.write ++ writeMembers members))
  | .broken => []

/-- The values behind the first, and the end of the array. -/
def writeItems : List Json → List Char
  | [] => [']']
  | item :: items => ',' :: (item.write ++ writeItems items)

/-- The members behind the first, and the end of the object. -/
def writeMembers : List (Option String × Json) → List Char
  | [] => ['\x7d']
  | (name, value) :: members =>
    ',' :: (writeString (name.getD "") ++ ':' :: (value.write ++ writeMembers members))

end

/-- The compact text of a value. -/
def toText (j : Json) : String := String.ofList j.write

mutual

/-- Whether a value can be written: every string of it is a text. -/
def isText : Json → Bool
  | .text s => s.isSome
  | .array items => allText items
  | .object members => membersText members
  | .broken => false
  | _ => true

/-- Whether every string of a list of values is a text. -/
def allText : List Json → Bool
  | [] => true
  | item :: items => item.isText && allText items

/-- Whether every string of a list of members is a text. -/
def membersText : List (Option String × Json) → Bool
  | [] => true
  | (name, value) :: members => name.isSome && value.isText && membersText members

end

/-- The compact text of a value, if it can be written. -/
def toText? (j : Json) : Option String := if j.isText then some j.toText else none

end QuotaWatch.Json
