/-
# Decoding JSON

A decoder takes a value at its place in a document to a value of the domain, or
refuses it. There are two ways to be refused: the document is malformed, or it
is JSON of another shape than expected. Where a document has several faults the
first one in the order of the text decides, so records are read member by
member.

A record is described by its fields: a name, a decoder, and the value taken
where the field is absent, if it may be. A record is read from an object, with
other names passed over and no name given twice, or from an array of its fields
in order.

Assumed of the library that decodes: fields are looked up by their names, other
names are passed over, a name given twice is refused, and an array of the
fields in order stands for a record.

Key definitions: `Refusal`, `Place`, `Decoder`, `Fields`, `record`, `splitting`,
`tagged`, `decodeText`.
-/
import QuotaWatch.Json.Reader

namespace QuotaWatch.Json

/-- Why a document is refused. -/
inductive Refusal where
  /-- The text is no JSON, or holds what cannot be represented. -/
  | malformed
  /-- The text is JSON of another shape. -/
  | shape
deriving Repr, DecidableEq

/-- Where a value stands in a document. -/
structure Place where
  /-- The containers around it. -/
  depth : Nat := 0
  /-- Whether it was kept whole before it is decoded. -/
  kept : Bool := false
deriving Repr, DecidableEq

/-- The place of the values in a container at this place. -/
def Place.inner (p : Place) : Place := { p with depth := p.depth + 1 }

/-- What reads values of a type. -/
abbrev Decoder (α : Type) := Place → Json → Except Refusal α

/-- How a value of the wrong kind is refused: a scalar is read before it is
judged, a container is not. -/
def refusal : Json → Refusal
  | .broken | .text none | .number .excessive => .malformed
  | _ => .shape

/-! ### Scalars -/

/-- A 64-bit word. -/
def word : Decoder UInt64
  | _, .number (.unsigned n) => .ok n
  | _, j => .error (refusal j)

/-- A 32-bit word. -/
def word32 : Decoder UInt32
  | _, .number (.unsigned n) => if n.toNat < UInt32.size then .ok n.toUInt32 else .error .shape
  | _, j => .error (refusal j)

/-- A float, also written as a whole number. -/
def float : Decoder Float
  | _, .number (.unsigned n) => .ok n.toFloat
  | _, .number (.negative n) => .ok (-(UInt64.ofNat n.natAbs).toFloat)
  | _, .number (.real x) => .ok x
  | _, j => .error (refusal j)

/-- A string. -/
def string : Decoder String
  | _, .text (some s) => .ok s
  | _, j => .error (refusal j)

/-- A string that names a value. -/
def named (f : String → Option α) : Decoder α := fun p j => do
  match f (← string p j) with
  | some a => .ok a
  | none => .error .shape

/-- A value, or `null` for none. -/
def optional (d : Decoder α) : Decoder (Option α)
  | _, .null => .ok none
  | p, j => (d p j).map some

/-- Values in order. -/
def listItems (d : Decoder α) (p : Place) : List Json → Except Refusal (List α)
  | [] => .ok []
  | item :: items => do
    let a ← d p item
    let as ← listItems d p items
    .ok (a :: as)

/-- A list. -/
def list (d : Decoder α) : Decoder (List α)
  | p, .array items => listItems d p.inner items
  | _, j => .error (refusal j)

/-- One of several names. Where the value was kept whole a number is read as
the position among the names. -/
def choice (names : List String) : Decoder Nat
  | _, .text (some s) => if s ∈ names then .ok (names.idxOf s) else .error .shape
  | p, .number (.unsigned n) =>
    if p.kept && n.toNat < names.length then .ok n.toNat else .error .shape
  | _, j => .error (refusal j)

/-! ### Records -/

/-- A value for each type of a list. -/
def Row : List Type → Type
  | [] => Unit
  | α :: αs => α × Row αs

/-- The fields of a record. -/
inductive Fields : List Type → Type 1 where
  | nil : Fields []
  /-- A field with its name, its decoder and its value where it is absent. -/
  | cons {α : Type} {αs : List Type} (name : String) (d : Decoder α) (absent : Option α)
      (rest : Fields αs) : Fields (α :: αs)

/-- A field that must be there. -/
def need (name : String) (d : Decoder α) (rest : Fields αs) : Fields (α :: αs) :=
  .cons name d none rest

/-- A field that may be absent. -/
def may (name : String) (d : Decoder α) (absent : α) (rest : Fields αs) : Fields (α :: αs) :=
  .cons name d (some absent) rest

/-- Fields of which some have been read. -/
def Slots (αs : List Type) : Type := Row (αs.map Option)

/-- No field has been read. -/
def Slots.empty : (αs : List Type) → Slots αs
  | [] => ()
  | _ :: αs => (none, Slots.empty αs)

/-- What becomes of one member of an object. -/
inductive Step (β : Type) where
  /-- No field has the name. -/
  | unknown
  | refused (r : Refusal)
  | read (b : β)

/-- Read one member into its field. A field is read once. -/
def Fields.put (p : Place) (name : String) (value : Json) :
    {αs : List Type} → Fields αs → Slots αs → Step (Slots αs)
  | _, .nil, _ => .unknown
  | _, .cons field d _ rest, (slot, slots) =>
    if name = field then
      if slot.isSome then .refused .shape
      else
        match d p value with
        | .ok a => .read (some a, slots)
        | .error r => .refused r
    else
      match rest.put p name value slots with
      | .unknown => .unknown
      | .refused r => .refused r
      | .read slots => .read (slot, slots)

/-- The fields once all members are read; an absent field takes its value. -/
def Fields.complete : {αs : List Type} → Fields αs → Slots αs → Except Refusal (Row αs)
  | _, .nil, _ => .ok ()
  | _, .cons _ _ absent rest, (slot, slots) =>
    match slot.or absent with
    | some a => (rest.complete slots).map (Prod.mk a)
    | none => .error .shape

/-- The members of an object in order, read into fields; other names are passed over. -/
def Fields.gather (fields : Fields αs) (p : Place) :
    Slots αs → List (Option String × Json) → Except Refusal (Slots αs)
  | slots, [] => .ok slots
  | _, (none, _) :: _ => .error .malformed
  | slots, (some name, value) :: members =>
    match fields.put p name value slots with
    | .read slots => fields.gather p slots members
    | .refused r => .error r
    | .unknown => if value.isIntact then fields.gather p slots members else .error .malformed

/-- The fields from the values of an array, none left over. -/
def Fields.inOrder (p : Place) :
    {αs : List Type} → Fields αs → List Json → Except Refusal (Row αs)
  | _, .nil, [] => .ok ()
  | _, .nil, _ :: _ => .error (if p.kept then .shape else .malformed)
  | _, .cons _ _ (some a) rest, [] => (rest.inOrder p []).map (Prod.mk a)
  | _, .cons _ _ none _, [] => .error .shape
  | _, .cons _ d _ rest, item :: items => do
    let a ← d p item
    let row ← rest.inOrder p items
    .ok (a, row)

/-- A record from an object or from an array. -/
def record (fields : Fields αs) (build : Row αs → β) : Decoder β
  | p, .object members => do
    let slots ← fields.gather p.inner (Slots.empty αs) members
    (fields.complete slots).map build
  | p, .array items => (fields.inOrder p.inner items).map build
  | _, j => .error (refusal j)

/-- The members of an object in order, read into fields; the others are kept whole. -/
def Fields.split (fields : Fields αs) (p : Place) :
    Slots αs → List (Option String × Json) →
      Except Refusal (Slots αs × List (Option String × Json))
  | slots, [] => .ok (slots, [])
  | _, (none, _) :: _ => .error .malformed
  | slots, (some name, value) :: members =>
    match fields.put p name value slots with
    | .read slots => fields.split p slots members
    | .refused r => .error r
    | .unknown =>
      if p.kept || value.isPlain p.depth then do
        let (slots, others) ← fields.split p slots members
        .ok (slots, (some name, value) :: others)
      else .error .malformed

/-- A record whose last part is spread out among its own members: the members
without a field of their own are decoded as that part. -/
def splitting (fields : Fields αs) (part : Decoder γ) (build : Row αs → γ → β) : Decoder β
  | p, .object members => do
    let (slots, others) ← fields.split p.inner (Slots.empty αs) members
    let row ← fields.complete slots
    let c ← part { p with kept := true } (.object others)
    .ok (build row c)
  | _, j => .error (refusal j)

/-! ### Tagged values -/

/-- The tag among the members of an object, and the other members kept whole. -/
def findTag (p : Place) (tag : String) (d : Decoder κ) :
    Option κ → List (Option String × Json) →
      Except Refusal (Option κ × List (Option String × Json))
  | k, [] => .ok (k, [])
  | _, (none, _) :: _ => .error .malformed
  | k, (some name, value) :: members =>
    if name = tag then
      if k.isSome then .error .shape
      else do findTag p tag d (some (← d p value)) members
    else if p.kept || value.isPlain p.depth then do
      let (k, others) ← findTag p tag d k members
      .ok (k, (some name, value) :: others)
    else .error .malformed

/-- A value whose kind is told by a member of its object, or by the first value
of its array; the rest is decoded as that kind demands. -/
def tagged (tag : String) (d : Decoder κ) (payload : κ → Decoder β) : Decoder β
  | p, .object members => do
    match ← findTag p.inner tag d none members with
    | (some k, others) => payload k { p with kept := true } (.object others)
    | (none, _) => .error .shape
  | _, .array [] => .error .shape
  | p, .array (first :: items) => do
    let k ← d p.inner first
    if p.kept || allPlain (p.depth + 1) items then
      payload k { p with kept := true } (.array items)
    else .error .malformed
  | _, j => .error (refusal j)

/-! ### Documents -/

/-- The value of a text that holds nothing behind it but blanks. -/
def decodeText (d : Decoder α) (text : String) : Except Refusal α :=
  match read text.toList with
  | (j, some rest) => do
    let a ← d {} j
    if rest.all isGap then .ok a else .error .malformed
  | (j, none) => do
    let _ ← d {} j
    .error .malformed

end QuotaWatch.Json
