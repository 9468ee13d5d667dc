/-
# Request targets

What a request is addressed to: a path with what may follow it, or a whole
address with a scheme and an authority in front of the path, or an authority
alone, which has no path.

Assumed of the library for addresses: this is how it takes a target apart, and
the faults are found in this order.

Key definitions: `TargetFault`, `Target.path?`.
Key theorems: `Target.path?_path`.
-/

namespace QuotaWatch

/-- Why a text is no target. -/
inductive TargetFault where
  | empty
  | tooLong
  | schemeTooLong
  | badCharacter
  | badAuthority
  /-- There is neither a path nor an authority alone. -/
  | badFormat
deriving Repr, DecidableEq

/-- The fault as a text. -/
def TargetFault.message : TargetFault → String
  | .empty => "empty string"
  | .tooLong => "uri too long"
  | .schemeTooLong => "scheme too long"
  | .badCharacter => "invalid uri character"
  | .badAuthority => "invalid authority"
  | .badFormat => "invalid format"

namespace Target

/-- Bytes in a target at most. -/
def maxLength : Nat := 65534

/-- Characters in a scheme at most. -/
def maxScheme : Nat := 64

/-- Colons in an authority at most, up to a bracket or an at sign. -/
def maxColons : Nat := 8

/-! ### Paths -/

/-- The characters of a path. -/
def isPathChar (c : Char) : Bool :=
  c.isAlphanum || "!$%&'()*+,-./:;=@[\\]^_|~\"\x7b\x7d".toList.contains c || 127 ≤ c.toNat

/-- The characters of a query. -/
def isQueryChar (c : Char) : Bool :=
  (33 ≤ c.toNat && !"\"#<>".toList.contains c)

/-- Whether what stands behind a path is nothing, a query or a fragment. Nothing
is asked of a fragment. -/
def isTail : List Char → Bool
  | [] => true
  | '#' :: _ => true
  | '?' :: rest =>
    match rest.dropWhile isQueryChar with
    | [] => true
    | c :: _ => c == '#'
  | _ => false

/-- The path at the start of a text, without a query or a fragment. -/
def pathOf? (cs : List Char) : Except TargetFault (List Char) :=
  if isTail (cs.dropWhile isPathChar) then .ok (cs.takeWhile isPathChar) else .error .badCharacter

/-! ### Schemes -/

/-- The characters of a scheme. -/
def isSchemeChar (c : Char) : Bool := c.isAlphanum || "+-.~".toList.contains c

/-- The scheme in front of a colon and two slashes, with the text behind them. -/
def cutScheme? (cs : List Char) : Option (List Char × List Char) :=
  match cs.dropWhile isSchemeChar with
  | ':' :: '/' :: '/' :: rest => some (cs.takeWhile isSchemeChar, rest)
  | _ => none

/-! ### Authorities -/

/-- The characters of an authority; a percent sign is allowed in places. -/
def isAuthorityChar (c : Char) : Bool :=
  c.isAlphanum || "!$%&'()*+,-.:;=@[]_~".toList.contains c

/-- What has been met of an authority. -/
structure Met where
  colons : Nat := 0
  percent : Bool := false
  opened : Bool := false
  closed : Bool := false

/-- Meet another character of an authority. A bracket that closes and an at sign
forgive the colons and percent signs before them. -/
def Met.next? (m : Met) (c : Char) : Option Met :=
  if c = ':' then if maxColons ≤ m.colons then none else some { m with colons := m.colons + 1 }
  else if c = '[' then if m.percent || m.opened then none else some { m with opened := true }
  else if c = ']' then
    if !m.opened || m.closed then none
    else some { m with closed := true, colons := 0, percent := false }
  else if c = '@' then some { m with colons := 0, percent := false }
  else if c = '%' then some { m with percent := true }
  else some m

/-- Whether a run of characters is an authority. -/
def isAuthority (cs : List Char) : Bool :=
  match cs.foldlM Met.next? {} with
  | none => false
  | some m =>
    m.opened == m.closed && m.colons ≤ 1 && cs.getLast? != some '@' && !m.percent

/-- The authority at the start of a text, with the text behind it. -/
def cutAuthority (cs : List Char) : Except TargetFault (List Char × List Char) :=
  let rest := cs.dropWhile isAuthorityChar
  if rest.head?.any fun c => c != '/' && c != '?' && c != '#' then .error .badCharacter
  else if isAuthority (cs.takeWhile isAuthorityChar) then
    .ok (cs.takeWhile isAuthorityChar, rest)
  else .error .badAuthority

/-! ### Targets -/

/-- The path of an address behind its scheme. It is a slash where there is none. -/
def afterScheme? (cs : List Char) : Except TargetFault (List Char) := do
  let (authority, rest) ← cutAuthority cs
  if authority.isEmpty then .error .badFormat
  else
    match ← pathOf? rest with
    | [] => .ok ['/']
    | path => .ok path

/-- The path of a target: an authority alone has none. -/
def path? (target : String) : Except TargetFault (List Char) :=
  let cs := target.toList
  if maxLength < target.utf8ByteSize then .error .tooLong
  else
    match cs with
    | [] => .error .empty
    | '/' :: _ => pathOf? cs
    | ['*'] => .ok cs
    | _ =>
      match cutScheme? cs with
      | some (scheme, rest) =>
        if maxScheme < scheme.length then .error .schemeTooLong else afterScheme? rest
      | none => do
        let (_, rest) ← cutAuthority cs
        if rest.isEmpty then .ok [] else .error .badFormat

/-- Characters of a path are all taken. -/
theorem pathOf?_all {cs : List Char} (h : cs.all isPathChar = true) : pathOf? cs = .ok cs := by
  have both : ∀ ds : List Char, ds.all isPathChar = true →
      ds.dropWhile isPathChar = [] ∧ ds.takeWhile isPathChar = ds := by
    intro ds
    induction ds with
    | nil => simp
    | cons d ds ih =>
      intro hd
      simp only [List.all_cons, Bool.and_eq_true] at hd
      simp [hd.1, ih hd.2]
  rw [pathOf?, (both cs h).1, (both cs h).2, isTail, if_pos rfl]

/-- A path alone is its own path. -/
theorem path?_path {target : String} {rest : List Char} (h : target.toList = '/' :: rest)
    (plain : rest.all isPathChar = true) (short : target.utf8ByteSize ≤ maxLength) :
    path? target = .ok ('/' :: rest) := by
  have all : ('/' :: rest).all isPathChar = true := by
    rw [List.all_cons, plain, Bool.and_true]
    decide
  have hlong : ¬ maxLength < target.utf8ByteSize := by omega
  simp only [path?, h, hlong, if_false, pathOf?_all all]

end Target

/-- Whether a text is the name of a method. -/
def isMethod (method : String) : Bool :=
  !method.isEmpty &&
    method.toList.all fun c => c.isAlphanum || "!#$%&'*+-.^_\x60|~".toList.contains c

/-- Whether a text can stand in a header. -/
def isHeaderText (text : String) : Bool :=
  text.toList.all fun c => c == '\t' || (31 < c.toNat && c.toNat != 127)

end QuotaWatch
