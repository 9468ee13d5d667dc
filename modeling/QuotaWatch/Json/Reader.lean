/-
# Reading a JSON text

Every text has a tree. Reading goes from left to right and stops where the text
is no JSON any more; there the tree has a `broken` node and no rest is given.

Assumed of the library that reads JSON: it goes from left to right, gives up at
the first character that is no JSON, and nests no deeper than its limit where a
value is kept.

Key definitions: `Json.read`, `Json.ofText`.
-/
import QuotaWatch.Json.Number
import QuotaWatch.Text.Hex

namespace QuotaWatch.Json

/-- The blanks of a JSON text. -/
def isGap (c : Char) : Bool := c == ' ' || c == '\t' || c == '\n' || c == '\r'

/-- The text behind its leading blanks. -/
def skipGaps (cs : List Char) : List Char := cs.dropWhile isGap

/-! ### Strings -/

/-- A character of a string as written: itself, or a 16-bit unit in an escape. -/
inductive Piece where
  | plain (c : Char)
  | unit (n : Nat)

/-- The character that a backslash and a letter stand for. -/
def escaped? (c : Char) : Option Char :=
  if c == '"' || c == '\\' || c == '/' then some c
  else if c == 'b' then some '\x08'
  else if c == 'f' then some '\x0c'
  else if c == 'n' then some '\n'
  else if c == 'r' then some '\r'
  else if c == 't' then some '\t'
  else none

/-- The pieces of a string behind its opening quote, with the rest behind the
closing one. -/
def readPieces : List Char → Option (List Piece × List Char)
  | [] => none
  | '"' :: rest => some ([], rest)
  | '\\' :: 'u' :: a :: b :: c :: d :: rest => do
    let n ← Text.hexNumber? 0 [a, b, c, d]
    let (pieces, rest) ← readPieces rest
    some (.unit n :: pieces, rest)
  | '\\' :: c :: rest => do
    let c ← escaped? c
    let (pieces, rest) ← readPieces rest
    some (.plain c :: pieces, rest)
  | c :: rest => do
    if c == '\\' || c.toNat < 32 then none
    else
      let (pieces, rest) ← readPieces rest
      some (.plain c :: pieces, rest)

/-- The first half of a surrogate pair. -/
def isHigh (n : Nat) : Bool := 0xD800 ≤ n && n ≤ 0xDBFF

/-- The second half of a surrogate pair. -/
def isLow (n : Nat) : Bool := 0xDC00 ≤ n && n ≤ 0xDFFF

/-- The characters that pieces stand for; two units make one character where
they are a surrogate pair, and half a pair has none. -/
def joinPieces : List Piece → Option (List Char)
  | [] => some []
  | .plain c :: rest => (joinPieces rest).map (c :: ·)
  | .unit n :: .unit m :: rest =>
    if isHigh n then
      if isLow m then
        (joinPieces rest).map (Char.ofNat (0x10000 + (n - 0xD800) * 1024 + (m - 0xDC00)) :: ·)
      else none
    else if isLow n then none
    else (joinPieces (.unit m :: rest)).map (Char.ofNat n :: ·)
  | .unit n :: rest =>
    if isHigh n || isLow n then none else (joinPieces rest).map (Char.ofNat n :: ·)

/-- A string behind its opening quote. -/
def readString (cs : List Char) : Option (Option String × List Char) :=
  (readPieces cs).map fun (pieces, rest) => ((joinPieces pieces).map String.ofList, rest)

/-! ### Values -/

/-- The rest behind a word that the text starts with. -/
def literal? : List Char → List Char → Option (List Char)
  | [], rest => some rest
  | w :: word, c :: rest => if w == c then literal? word rest else none
  | _ :: _, [] => none

/-- A value together with the rest of the text, or a broken one. -/
def readAs (value : Json) : Option (List Char) → Json × Option (List Char)
  | some rest => (value, some rest)
  | none => (.broken, none)

/-- A value that is no container. -/
def readScalar (cs : List Char) : Json × Option (List Char) :=
  match cs with
  | '"' :: rest =>
    match readString rest with
    | some (s, rest) => (.text s, some rest)
    | none => (.broken, none)
  | 'n' :: _ => readAs .null (literal? ['n', 'u', 'l', 'l'] cs)
  | 't' :: _ => readAs (.bool true) (literal? ['t', 'r', 'u', 'e'] cs)
  | 'f' :: _ => readAs (.bool false) (literal? ['f', 'a', 'l', 's', 'e'] cs)
  | _ =>
    match Number.read cs with
    | some (n, rest) => (.number n, some rest)
    | none => (.broken, none)

mutual

/-- The value at the start of a text. The first argument bounds the recursion. -/
def readValue : Nat → List Char → Json × Option (List Char)
  | 0, _ => (.broken, none)
  | fuel + 1, cs =>
    match skipGaps cs with
    | '[' :: rest =>
      match skipGaps rest with
      | ']' :: rest => (.array [], some rest)
      | rest => let (items, rest) := readItems fuel rest; (.array items, rest)
    | '{' :: rest =>
      match skipGaps rest with
      | '}' :: rest => (.object [], some rest)
      | rest => let (members, rest) := readMembers fuel rest; (.object members, rest)
    | rest => readScalar rest

/-- The values of an array up to its end, at least one. -/
def readItems : Nat → List Char → List Json × Option (List Char)
  | 0, _ => ([.broken], none)
  | fuel + 1, cs =>
    match readValue fuel cs with
    | (item, none) => ([item], none)
    | (item, some rest) =>
      match skipGaps rest with
      | ']' :: rest => ([item], some rest)
      | ',' :: rest => let (items, rest) := readItems fuel rest; (item :: items, rest)
      | _ => ([item, .broken], none)

/-- The members of an object up to its end, at least one. -/
def readMembers : Nat → List Char → List (Option String × Json) × Option (List Char)
  | 0, _ => ([(none, .broken)], none)
  | fuel + 1, cs =>
    match skipGaps cs with
    | '"' :: rest =>
      match readString rest with
      | none => ([(none, .broken)], none)
      | some (name, rest) =>
        match skipGaps rest with
        | ':' :: rest =>
          match readValue fuel rest with
          | (value, none) => ([(name, value)], none)
          | (value, some rest) =>
            match skipGaps rest with
            | '}' :: rest => ([(name, value)], some rest)
            | ',' :: rest =>
              let (members, rest) := readMembers fuel rest
              ((name, value) :: members, rest)
            | _ => ([(name, value), (none, .broken)], none)
        | _ => ([(name, .broken)], none)
    | _ => ([(none, .broken)], none)

end

/-- The value at the start of a text and, unless the text breaks off, the rest behind it. -/
def read (cs : List Char) : Json × Option (List Char) := readValue (2 * cs.length + 2) cs

/-- The tree of a text that holds one value and nothing else but blanks. -/
def ofText (s : String) : Json :=
  match read s.toList with
  | (j, some rest) => if rest.all isGap then j else .broken
  | (j, none) => j

end QuotaWatch.Json
