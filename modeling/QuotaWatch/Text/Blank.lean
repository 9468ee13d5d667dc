/-
# Blank characters

The characters with the Unicode property White_Space, and the three cuts that
the readers of this library make with them: from the left, from both sides and
into words.

Key definitions: `isBlank`, `trimLeft`, `trim`, `words`.
Key theorems: `isBlank_of_isWhitespace`.
-/

namespace QuotaWatch.Text

/-- The characters with the property White_Space. -/
def isBlank (c : Char) : Bool :=
  let n := c.toNat
  (9 ≤ n && n ≤ 13) || n == 0x20 || n == 0x85 || n == 0xA0 || n == 0x1680 ||
    (0x2000 ≤ n && n ≤ 0x200A) || n == 0x2028 || n == 0x2029 || n == 0x202F || n == 0x205F ||
    n == 0x3000

/-- The text from its first character that is not blank. -/
def trimLeft (cs : List Char) : List Char := cs.dropWhile isBlank

/-- The text without the blanks on its two sides. -/
def trim (cs : List Char) : List Char := (trimLeft (trimLeft cs).reverse).reverse

/-- The words of a text; `word` holds the reversed start of the word being read. -/
def wordsFrom (word : List Char) : List Char → List (List Char)
  | [] => if word.isEmpty then [] else [word.reverse]
  | c :: cs =>
    if isBlank c then (if word.isEmpty then wordsFrom [] cs else word.reverse :: wordsFrom [] cs)
    else wordsFrom (c :: word) cs

/-- The longest runs of characters that are not blank, in order. -/
def words (cs : List Char) : List (List Char) := wordsFrom [] cs

/-- Every blank of ASCII is a blank here. -/
theorem isBlank_of_isWhitespace {c : Char} (h : c.isWhitespace = true) : isBlank c = true := by
  simp only [Char.isWhitespace, Bool.or_eq_true, decide_eq_true_eq] at h
  rcases h with ((h | h) | h) | h <;> subst h <;> decide

end QuotaWatch.Text
