/-
# Small letters

Names that are compared without regard to case are compared in small letters.

Key definitions: `lowerChar`, `lower`.
Key theorems: `length_lower`.
-/

namespace QuotaWatch.Text

/-- The small form of a character, where that is one of ASCII: besides the
letters of ASCII the Kelvin sign has one. -/
def lowerChar (c : Char) : Char := if c = '\u212a' then 'k' else c.toLower

/-- A text in small letters. -/
def lower (s : String) : String := s.map lowerChar

/-- A text in small letters is as long as before. -/
theorem length_lower (s : String) : (lower s).length = s.length := by simp [lower]

end QuotaWatch.Text
