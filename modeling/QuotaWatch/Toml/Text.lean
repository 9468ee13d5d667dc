/-
# Strings of a TOML text

Four forms of strings: with escapes or without, and each on one line or on
several. Every reader stands behind the opening quotes and gives the string
with the rest behind the closing ones.

Key definitions: `readQuoted?`, `readLiteral?`, `readString?`.
-/
import QuotaWatch.Text.Hex

namespace QuotaWatch.Toml

/-- The blanks within a line. -/
def isGap (c : Char) : Bool := c == ' ' || c == '\t'

/-- The text behind its leading blanks. -/
def skipGaps (cs : List Char) : List Char := cs.dropWhile isGap

/-- The text behind the end of a line. -/
def lineBreak? : List Char → Option (List Char)
  | '\n' :: rest => some rest
  | '\r' :: '\n' :: rest => some rest
  | _ => none

/-- The characters that stand for themselves in comments and strings. -/
def isPlain (c : Char) : Bool := c == '\t' || (32 ≤ c.toNat && c != '\x7f')

/-- A character put in front of the characters read. -/
def before (c : Char) (read : Option (List Char × List Char)) : Option (List Char × List Char) :=
  read.map fun (cs, rest) => (c :: cs, rest)

/-! ### Escapes -/

/-- The character of a code point given by as many digits as `width`. -/
def readCodePoint? (width : Nat) (cs : List Char) : Option (Char × List Char) := do
  let n ← if cs.length < width then none else Text.hexNumber? 0 (cs.take width)
  if h : n.isValidChar then some (Char.ofNatAux n h, cs.drop width) else none

/-- The character of an escape behind its backslash. -/
def readEscape? : List Char → Option (Char × List Char)
  | 'b' :: rest => some ('\x08', rest)
  | 't' :: rest => some ('\t', rest)
  | 'n' :: rest => some ('\n', rest)
  | 'f' :: rest => some ('\x0c', rest)
  | 'r' :: rest => some ('\r', rest)
  | '"' :: rest => some ('"', rest)
  | '\\' :: rest => some ('\\', rest)
  | 'u' :: rest => readCodePoint? 4 rest
  | 'U' :: rest => readCodePoint? 8 rest
  | _ => none

/-! ### Strings on one line -/

/-- The characters of a string with escapes. The first argument bounds the recursion. -/
def readQuoted? : Nat → List Char → Option (List Char × List Char)
  | 0, _ => none
  | fuel + 1, cs =>
    match cs with
    | [] => none
    | '"' :: rest => some ([], rest)
    | '\\' :: rest => do
      let (c, rest) ← readEscape? rest
      before c (readQuoted? fuel rest)
    | c :: rest => if isPlain c then before c (readQuoted? fuel rest) else none

/-- The characters of a string without escapes. -/
def readLiteral? : List Char → Option (List Char × List Char)
  | [] => none
  | c :: rest =>
    if c == '\'' then some ([], rest)
    else if isPlain c then before c (readLiteral? rest)
    else none

/-! ### Strings on several lines -/

/-- The text behind blanks and ends of lines. -/
def skipLines : List Char → List Char
  | '\r' :: '\n' :: rest => skipLines rest
  | c :: rest => if isGap c || c == '\n' then skipLines rest else c :: rest
  | [] => []

/-- The end of a string at a run of its quotes: three of them close it, and up
to two in front of those are its own. -/
def closing? (quote : Char) (cs : List Char) : Option (List Char × List Char) :=
  let run := (cs.takeWhile (· == quote)).length
  if run < 3 then none
  else
    let own := min (run - 3) 2
    some (List.replicate own quote, cs.drop (own + 3))

/-- The characters of a string on several lines. The first argument bounds the recursion. -/
def readLines? (quote : Char) (escapes : Bool) : Nat → List Char → Option (List Char × List Char)
  | 0, _ => none
  | fuel + 1, cs =>
    match closing? quote cs with
    | some closed => some closed
    | none =>
      match cs with
      | [] => none
      | '\n' :: rest => before '\n' (readLines? quote escapes fuel rest)
      | '\r' :: '\n' :: rest => before '\n' (readLines? quote escapes fuel rest)
      | c :: rest =>
        if escapes && c == '\\' then
          match lineBreak? (skipGaps rest) with
          | some rest => readLines? quote escapes fuel (skipLines rest)
          | none => do
            let (c, rest) ← readEscape? rest
            before c (readLines? quote escapes fuel rest)
        else if isPlain c then before c (readLines? quote escapes fuel rest)
        else none

/-- A string on several lines behind its opening quotes; an end of line right
behind them is not part of it. -/
def readBlock? (quote : Char) (escapes : Bool) (cs : List Char) : Option (List Char × List Char) :=
  readLines? quote escapes (cs.length + 1) ((lineBreak? cs).getD cs)

/-! ### Any string -/

/-- The string at the start of a text. -/
def readString? (cs : List Char) : Option (String × List Char) :=
  (match cs with
    | '"' :: '"' :: '"' :: rest => readBlock? '"' true rest
    | '"' :: rest => readQuoted? (rest.length + 1) rest
    | '\'' :: '\'' :: '\'' :: rest => readBlock? '\'' false rest
    | '\'' :: rest => readLiteral? rest
    | _ => none).map fun (cs, rest) => (String.ofList cs, rest)

end QuotaWatch.Toml
