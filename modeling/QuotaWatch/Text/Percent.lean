/-
# Percent escapes

In an address a byte may be written as a percent sign and two digits in base
sixteen. A percent sign without them stands for itself.

Assumed of the library that resolves escapes: it goes by bytes from left to
right, and what results is an id only if it is UTF-8.

Key definitions: `percentBytes`, `percentDecode?`.
Key theorems: `percentBytes_plain`.
-/
import QuotaWatch.Text.Hex

namespace QuotaWatch.Text

/-- The byte of two digits in base sixteen. -/
def hexByte? (high low : Char) : Option UInt8 := do
  some (UInt8.ofNat (← hexNumber? 0 [high, low]))

/-- The bytes that a text with escapes stands for. -/
def percentBytes : List Char → List UInt8
  | [] => []
  | '%' :: high :: low :: rest =>
    match hexByte? high low with
    | some byte => byte :: percentBytes rest
    | none => String.utf8EncodeChar '%' ++ percentBytes (high :: low :: rest)
  | c :: rest => String.utf8EncodeChar c ++ percentBytes rest

/-- The text that a text with escapes stands for, if its bytes are one. -/
def percentDecode? (cs : List Char) : Option String :=
  String.fromUTF8? ⟨(percentBytes cs).toArray⟩

/-- A character that is no percent sign stands for its own bytes. -/
theorem percentBytes_plain {c : Char} (h : c ≠ '%') (rest : List Char) :
    percentBytes (c :: rest) = String.utf8EncodeChar c ++ percentBytes rest := by
  rw [percentBytes]
  rintro _ _ _ rfl
  exact absurd rfl h

end QuotaWatch.Text
