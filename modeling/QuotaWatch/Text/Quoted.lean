/-
# Quoted text

How a text is shown inside a message: between double quotes, with an escape for
each character that would not show as itself.

Key definitions: `quoteChar`, `quoted`.
-/
import QuotaWatch.Text.Printable

namespace QuotaWatch.Text

/-- The digits of a number in base sixteen. -/
def hexDigits (n : Nat) : List Char := Nat.toDigits 16 n

/-- One character inside quotes. -/
def quoteChar (c : Char) : List Char :=
  if c == '"' || c == '\\' then ['\\', c]
  else if c == '\n' then ['\\', 'n']
  else if c == '\r' then ['\\', 'r']
  else if c == '\t' then ['\\', 't']
  else if c == '\x00' then ['\\', '0']
  else if isPrintable c && !isJoining c then [c]
  else '\\' :: 'u' :: '\x7b' :: hexDigits c.toNat ++ ['\x7d']

/-- A text between double quotes. -/
def quoted (s : String) : String :=
  String.ofList ('"' :: s.toList.flatMap quoteChar ++ ['"'])

end QuotaWatch.Text
