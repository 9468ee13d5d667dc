/-
# Media types

The type of a request's body, as far as it tells JSON from other things: a
type, a slash, a subtype that may end in a suffix, and parameters.

Assumed of the library for media types: its types have this grammar, and names
are compared without regard to case.

Key definitions: `MediaType.ofText?`, `MediaType.isJson`, `isJsonType`.
-/

namespace QuotaWatch

/-- A media type without its parameters, in small letters. -/
structure MediaType where
  main : List Char
  subtype : List Char
  /-- What stands behind the last plus sign of the subtype. -/
  suffix : Option (List Char) := none
deriving Repr, DecidableEq

namespace MediaType

/-- The characters of names and of plain values. -/
def isToken (c : Char) : Bool :=
  c.isAlphanum || "!#$%&'*+-.^_\x60|~".toList.contains c

/-- The characters between quotes; the first of them may be a quote too. -/
def isQuotable (c : Char) : Bool := c == '\t' || (c.toNat > 31 && c.toNat != 127)

/-- What stands behind a quoted value: blanks up to the next parameter or the end. -/
def afterQuoted? : List Char → Option (List Char)
  | [] => some []
  | ';' :: rest => some rest
  | ' ' :: rest => afterQuoted? rest
  | _ => none

/-- The rest behind the value of a parameter. Between quotes there is at least
one character; a plain value is empty only at the end. -/
def value? (cs : List Char) : Option (List Char) :=
  match cs with
  | ['"'] => none
  | '"' :: first :: rest =>
    if !isQuotable first then none
    else
      match rest.dropWhile fun c => isQuotable c && c != '"' with
      | '"' :: rest => afterQuoted? rest
      | _ => none
  | _ =>
    match cs.takeWhile isToken, cs.dropWhile isToken with
    | _, [] => some []
    | _ :: _, ';' :: rest => some rest
    | _, _ => none

/-- The rest behind one parameter. -/
def parameter? (cs : List Char) : Option (List Char) :=
  match cs.takeWhile isToken, cs.dropWhile isToken with
  | _ :: _, '=' :: rest => value? rest
  | _, _ => none

/-- Whether parameters are well formed, with blanks in front of each; there may
be none. The first argument bounds their number. -/
def hasParameters : Nat → List Char → Bool
  | _, [] => true
  | 0, _ => false
  | fuel + 1, ' ' :: rest => hasParameters fuel rest
  | fuel + 1, cs => (parameter? cs).any (hasParameters fuel)

/-- Whether what stands behind the subtype is nothing or parameters. -/
def isTail : List Char → Bool
  | [] => true
  | ';' :: rest => hasParameters (rest.length + 1) rest
  | _ => false

/-- Cut the subtype at its last plus sign, unless that is its first character. -/
def splitSuffix (cs : List Char) : List Char × Option (List Char) :=
  let reversed := cs.reverse
  match reversed.dropWhile (· != '+') with
  | _ :: name@(_ :: _) => (name.reverse, some (reversed.takeWhile (· != '+')).reverse)
  | _ => (cs, none)

/-- The media type of a text. -/
def ofText? (text : String) : Option MediaType :=
  let cs := text.toList.map Char.toLower
  match cs.takeWhile isToken, cs.dropWhile isToken with
  | main@(_ :: _), '/' :: rest =>
    let name := rest.takeWhile isToken
    if name.isEmpty || !isTail (rest.dropWhile isToken) then none
    else
      let (subtype, suffix) := splitSuffix name
      some ⟨main, subtype, suffix⟩
  | _, _ => none

/-- Whether the body is JSON: the subtype or the suffix says so. -/
def isJson (m : MediaType) : Bool :=
  m.main == "application".toList &&
    (m.subtype == "json".toList || m.suffix == some "json".toList)

end MediaType

/-- Whether a text is the type of a JSON body. -/
def isJsonType (text : String) : Bool :=
  text.toList.all (fun c => c == '\t' || (31 < c.toNat && c.toNat < 127)) &&
    (MediaType.ofText? text).any MediaType.isJson

end QuotaWatch
