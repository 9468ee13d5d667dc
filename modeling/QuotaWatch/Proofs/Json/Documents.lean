/-
# Documents of values

A tree is a document of a value if its text is decoded as that value wherever there is room
for its containers, and a document of none if it is refused there (`Documents`). Documents are
put together as decoders are: a list of documents is a document of the list, members that are
documents of the fields of a record are a document of the record (`Members`,
`Documents.record`), and members may be spread out among others (`Documents.splitting`) or
stand behind a tag (`Documents.tagged`) as long as no name is given twice. So a round trip is
a walk through the document, with no decoder opened, and one part that is refused has the
whole refused.

Key definitions: `Place.HasRoom`, `Documents`, `Fields.names`, `Members`, `IsApart`.
Key theorems: `Documents.decodeText_eq`, `Documents.decodeText_refused`, `Documents.list`,
`Documents.record`, `Documents.splitting`, `Documents.tagged`.
-/
import QuotaWatch.Proofs.Json.Text

namespace QuotaWatch.Json

variable {α β γ κ : Type} {αs : List Type}

/-! ### Room for containers -/

/-- Whether a value with so many containers within each other can stand at a place. -/
def Place.HasRoom (p : Place) (height : ℕ) : Prop :=
  p.kept = true ∨ p.depth + height ≤ maxDepth

theorem Place.HasRoom.inner {p : Place} {height : ℕ} (h : p.HasRoom (height + 1)) :
    p.inner.HasRoom height :=
  h.imp id fun hdepth => by simp only [Place.inner]; omega

theorem Place.hasRoom_kept (p : Place) (height : ℕ) :
    ({ p with kept := true } : Place).HasRoom height := Or.inl rfl

theorem IsSound.plain {p : Place} {height : ℕ} {j : Json} (hj : IsSound height j)
    (hp : p.HasRoom height) : (p.kept || j.asRead.isPlain p.depth) = true := by
  rcases hp with hkept | hdepth
  · rw [hkept, Bool.true_or]
  · rw [isPlain_asRead hj p.depth hdepth, Bool.or_true]

/-- A tree with at most `height` containers within each other whose text is decoded as a value
wherever there is room for it, or refused if there is no value. -/
structure Documents (d : Decoder α) (height : ℕ) (j : Json) (a? : Option α) : Prop where
  sound : IsSound height j
  decodes : ∀ p : Place, p.HasRoom height → (d p j.asRead).toOption = a?

theorem toOption_eq_some {ε : Type} {x : Except ε α} {a : α} (h : x.toOption = some a) :
    x = .ok a := by
  cases x with
  | ok b => cases h; rfl
  | error e => cases h

theorem toOption_eq_none {ε : Type} {x : Except ε α} (h : x.toOption = none) :
    ∃ e, x = .error e := by
  cases x with
  | ok b => cases h
  | error e => exact ⟨e, rfl⟩

section Documents

variable {d : Decoder α} {height : ℕ} {j : Json}

theorem Documents.toOption_decodeText {a? : Option α} (h : Documents d height j a?)
    (hheight : height ≤ maxDepth) : (decodeText d j.toText).toOption = a? := by
  rw [decodeText_toText h.sound]
  exact h.decodes {} (Or.inr (by simpa using hheight))

/-- A document can be written. -/
theorem Documents.toText?_eq {a? : Option α} (h : Documents d height j a?) :
    j.toText? = some j.toText := if_pos (isText_of_isSound h.sound)

/-- **The text of a document is decoded as its value.** -/
theorem Documents.decodeText_eq {a : α} (h : Documents d height j (some a))
    (hheight : height ≤ maxDepth) : decodeText d j.toText = .ok a :=
  toOption_eq_some (h.toOption_decodeText hheight)

/-- **The text of a document of none is refused.** -/
theorem Documents.decodeText_refused (h : Documents d height j none)
    (hheight : height ≤ maxDepth) : ∃ r, decodeText d j.toText = .error r :=
  toOption_eq_none (h.toOption_decodeText hheight)

end Documents

/-! ### Scalars -/

section Scalars

variable {height : ℕ}

theorem documents_ofWord (n : UInt64) : Documents word height (ofWord n) (some n) :=
  ⟨.number (Number.isWritable_unsigned n), fun p _ => by rw [asRead_ofWord]; rfl⟩

theorem documents_ofWord32 (n : UInt32) :
    Documents word32 height (ofWord n.toUInt64) (some n) := by
  refine ⟨.number (Number.isWritable_unsigned _), fun p _ => ?_⟩
  have hlt : n.toNat < UInt32.size := n.toNat_lt
  rw [asRead_ofWord]
  simp [word32, ofWord, hlt, Except.toOption]

theorem documents_ofString (s : String) : Documents string height (ofString s) (some s) :=
  ⟨.text s, fun _ _ => rfl⟩

theorem documents_named (f : String → Option α) (s : String) :
    Documents (named f) height (ofString s) (f s) :=
  ⟨.text s, fun p _ => by
    rw [asRead_ofString, named, ofString, string]
    cases hs : f s <;> simp [hs, bind, Except.bind, Except.toOption]⟩

theorem documents_choice {names : List String} {s : String} {k : ℕ} (h : s ∈ names)
    (hk : names.idxOf s = k) : Documents (choice names) height (ofString s) (some k) :=
  ⟨.text s, fun p _ => by
    have hchoice : choice names p (ofString s).asRead = .ok (names.idxOf s) := if_pos h
    rw [hchoice, hk]
    rfl⟩

end Scalars

/-! ### Lists and optional values -/

theorem optional_of_ne (d : Decoder α) (p : Place) {j : Json} (hnull : j ≠ .null) :
    optional d p j = (d p j).map some := by
  cases j <;> first | rfl | exact absurd rfl hnull

theorem Documents.optional {d : Decoder α} {height : ℕ} {j : Json} {a? : Option α}
    (h : Documents d height j a?) (hnull : j.asRead ≠ .null) :
    Documents (optional d) height j (a?.map some) := by
  refine ⟨h.sound, fun p hp => ?_⟩
  rw [optional_of_ne d p hnull, ← h.decodes p hp]
  cases d p j.asRead <;> rfl

/-- **Documents in a list are a document of the list**, refused if one of them is. -/
theorem Documents.list {d : Decoder α} {height : ℕ} {toJson : β → Json} {read : β → Option α}
    {bs : List β} (h : ∀ b ∈ bs, Documents d height (toJson b) (read b)) :
    Documents (Json.list d) (height + 1) (ofList toJson bs) (bs.mapM read) := by
  constructor
  · refine .array fun item hitem => ?_
    obtain ⟨b, hb, rfl⟩ := List.mem_map.mp hitem
    exact (h b hb).sound
  · intro p hp
    rw [ofList, asRead_array, Json.list]
    induction bs with
    | nil => rfl
    | cons b bs ih =>
      have hitem := (h b List.mem_cons_self).decodes p.inner hp.inner
      have hitems := ih fun b hb => h b (List.mem_cons_of_mem _ hb)
      rw [List.mapM_cons, ← hitem, ← hitems, List.map_cons, List.map_cons, listItems]
      cases d p.inner (toJson b).asRead with
      | error r => rfl
      | ok a =>
        cases listItems d p.inner ((bs.map toJson).map Json.asRead) <;> rfl

theorem Documents.list_some {d : Decoder α} {height : ℕ} {toJson : α → Json} {as : List α}
    (h : ∀ a ∈ as, Documents d height (toJson a) (some a)) :
    Documents (Json.list d) (height + 1) (ofList toJson as) (some as) := by
  have hlist := Documents.list h
  have hall : as.mapM some = some (as.map id) := List.mapM_pure
  rwa [hall, List.map_id] at hlist

/-! ### Records -/

/-- A row with one more value in front. -/
def Row.cons (a : α) (row : Row αs) : Row (α :: αs) := (a, row)

/-- One more field in front that may have been read. -/
def Slots.cons (slot : Option α) (slots : Slots αs) : Slots (α :: αs) := (slot, slots)

/-- The names of the fields of a record, in order. -/
def Fields.names : {αs : List Type} → Fields αs → List String
  | _, .nil => []
  | _, .cons name _ _ rest => name :: rest.names

/-- Members that are documents of the fields of a record, in their order; there is no row if one
of them is refused. A field with a value for its absence may be left out where it has that
value. -/
inductive Members (height : ℕ) : {αs : List Type} → Fields αs → Option (Row αs) →
    List (Option String × Json) → Prop where
  | nil : Members height .nil (some ()) []
  | given {α : Type} {αs : List Type} {name : String} {d : Decoder α} {absent : Option α}
      {rest : Fields αs} {value : Json} {a? : Option α} {row? : Option (Row αs)}
      {members : List (Option String × Json)} (hvalue : Documents d height value a?)
      (hrest : Members height rest row? members) :
      Members height (.cons name d absent rest) (a?.bind fun a => row?.map (Row.cons a))
        (member name value :: members)
  | left {α : Type} {αs : List Type} {name : String} {d : Decoder α} {a : α}
      {rest : Fields αs} {row? : Option (Row αs)} {members : List (Option String × Json)}
      (hrest : Members height rest row? members) :
      Members height (.cons name d (some a) rest) (row?.map (Row.cons a)) members

section Members

variable {height : ℕ} {name : String} {rest : Fields αs} {row : Row αs}
  {members : List (Option String × Json)}

/-- A member that is decoded. -/
theorem Members.cons {d : Decoder α} {absent : Option α} {value : Json} {a : α}
    (hvalue : Documents d height value (some a)) (hrest : Members height rest (some row) members) :
    Members height (.cons name d absent rest) (some (Row.cons a row))
      (member name value :: members) :=
  .given hvalue hrest

variable {fields : Fields αs} {row? : Option (Row αs)}

theorem Members.names (h : Members height fields row? members) :
    ∀ m ∈ members, ∃ name ∈ fields.names, m.1 = some name := by
  induction h with
  | nil => exact fun m hm => by cases hm
  | given _ _ ih =>
    rintro m hm
    rcases List.mem_cons.mp hm with rfl | hm
    · exact ⟨_, List.mem_cons_self, rfl⟩
    · obtain ⟨name, hname, heq⟩ := ih m hm
      exact ⟨name, List.mem_cons_of_mem _ hname, heq⟩
  | left _ ih =>
    rintro m hm
    obtain ⟨name, hname, heq⟩ := ih m hm
    exact ⟨name, List.mem_cons_of_mem _ hname, heq⟩

theorem Members.isSound (h : Members height fields row? members) :
    IsSound (height + 1) (.object members) := by
  refine .object (fun m hm => ?_) ?_
  · obtain ⟨name, -, heq⟩ := h.names m hm
    rw [heq]
    rfl
  · induction h with
    | nil => exact fun m hm => by cases hm
    | given hvalue _ ih => exact List.forall_mem_cons.mpr ⟨hvalue.sound, ih⟩
    | left _ ih => exact ih

end Members

/-- No member has one of the names. -/
def IsApart (names : List String) (members : List (Option String × Json)) : Prop :=
  ∀ m ∈ members, ∀ name ∈ names, m.1 ≠ some name

section Apart

variable {name : String} {names : List String} {members others : List (Option String × Json)}

theorem IsApart.of_mem (h : IsApart names members) (hname : name ∈ names) :
    IsApart [name] members := by
  rintro m hm _ (_ | ⟨_, ⟨⟩⟩)
  exact h m hm name hname

theorem IsApart.tail (h : IsApart (name :: names) members) : IsApart names members :=
  fun m hm other hother => h m hm other (List.mem_cons_of_mem _ hother)

theorem IsApart.append (h : IsApart names members) (hothers : IsApart names others) :
    IsApart names (members ++ others) :=
  fun m hm => (List.mem_append.mp hm).elim (h m) (hothers m)

theorem IsApart.asRead (h : IsApart [name] members) :
    ∀ m ∈ membersAsRead members, m.1 ≠ some name := by
  rw [membersAsRead_eq]
  rintro m hm
  obtain ⟨m', hm', rfl⟩ := List.mem_map.mp hm
  exact h m' hm' name List.mem_cons_self

theorem Members.isApart {height : ℕ} {fields : Fields αs} {row? : Option (Row αs)}
    (h : Members height fields row? members) (hname : name ∉ fields.names) :
    IsApart [name] members := by
  rintro m hm _ (_ | ⟨_, ⟨⟩⟩) heq
  obtain ⟨other, hother, hsome⟩ := h.names m hm
  have : other = name := Option.some.inj (hsome.symm.trans heq)
  exact hname (this ▸ hother)

end Apart

/-- A field is passed by where no member has its name. -/
theorem Fields.gather_cons {name : String} (d : Decoder α) (absent : Option α)
    (rest : Fields αs) (p : Place) (slot : Option α) :
    ∀ {members : List (Option String × Json)} (slots : Slots αs),
      (∀ m ∈ members, m.1 ≠ some name) →
      (Fields.cons name d absent rest).gather p (Slots.cons slot slots) members =
        (rest.gather p slots members).map (Slots.cons slot)
  | [], _, _ => rfl
  | (none, _) :: _, _, _ => rfl
  | (some other, value) :: members, slots, h => by
    have hne : other ≠ name := fun he => h _ List.mem_cons_self (congrArg some he)
    have ih := fun slots =>
      Fields.gather_cons d absent rest p slot slots fun m hm => h m (List.mem_cons_of_mem _ hm)
    simp only [Fields.gather, Slots.cons, Fields.put, hne, if_false]
    cases rest.put p other value slots with
    | unknown => cases value.isIntact <;> first | exact ih slots | rfl
    | refused r => rfl
    | read slots => exact ih slots

/-- The row of members, if none of them is refused and no field is missing. -/
def Fields.rowOf (fields : Fields αs) (p : Place) (members : List (Option String × Json)) :
    Except Refusal (Row αs) :=
  (fields.gather p (Slots.empty αs) members).bind fields.complete

/-- A filled field has its value, whatever becomes of the others. -/
theorem Fields.bind_complete (name : String) (d : Decoder α) (rest : Fields αs)
    {slot absent : Option α} {a : α} (h : slot.or absent = some a)
    (slots : Except Refusal (Slots αs)) :
    (slots.map (Slots.cons slot)).bind (Fields.cons name d absent rest).complete =
      (slots.bind rest.complete).map (Row.cons a) := by
  cases slots with
  | error r => rfl
  | ok slots =>
    simp only [Except.map, Except.bind, Fields.complete, Slots.cons, h]
    rfl

theorem toOption_map {ε : Type} (f : α → β) (x : Except ε α) :
    (x.map f).toOption = x.toOption.map f := by
  cases x <;> rfl

/-- **Members of the fields of a record are gathered into its row.** -/
theorem Members.gather {height : ℕ} {p : Place} (hp : p.HasRoom height) {fields : Fields αs}
    {row? : Option (Row αs)} {members : List (Option String × Json)}
    (h : Members height fields row? members) (hnames : fields.names.Nodup) :
    (fields.rowOf p (membersAsRead members)).toOption = row? := by
  induction h with
  | nil => rfl
  | @given α αs name d absent rest value a? row? members hvalue hrest ih =>
    obtain ⟨hname, hnodup⟩ := List.nodup_cons.mp hnames
    rw [← ih hnodup, ← hvalue.decodes p hp]
    cases hread : d p value.asRead with
    | error r =>
      simp only [Fields.rowOf, membersAsRead, member, Slots.empty, Fields.gather, Fields.put,
        if_true, hread]
      rfl
    | ok a =>
      have hgather := Fields.gather_cons d absent rest p (some a) (Slots.empty αs)
        (hrest.isApart hname).asRead
      have hrow : (Fields.cons name d absent rest).rowOf p
          (membersAsRead (member name value :: members)) =
          (rest.rowOf p (membersAsRead members)).map (Row.cons a) := by
        rw [Fields.rowOf, Fields.rowOf, ← Fields.bind_complete name d rest (Option.some_or ..),
          ← hgather]
        simp only [membersAsRead, member, Slots.empty, Fields.gather, Fields.put, if_true, hread]
        rfl
      rw [hrow, toOption_map]
      rfl
  | @left α αs name d a rest row? members hrest ih =>
    obtain ⟨hname, hnodup⟩ := List.nodup_cons.mp hnames
    have hgather := Fields.gather_cons d (some a) rest p none (Slots.empty αs)
      (hrest.isApart hname).asRead
    have hrow : (Fields.cons name d (some a) rest).rowOf p (membersAsRead members) =
        (rest.rowOf p (membersAsRead members)).map (Row.cons a) := by
      rw [Fields.rowOf, Fields.rowOf, ← Fields.bind_complete name d rest (Option.none_or ..),
        ← hgather]
      rfl
    rw [hrow, toOption_map, ih hnodup]

/-- **Members that are documents of the fields are a document of the record.** -/
theorem Documents.record {height : ℕ} {fields : Fields αs} {row? : Option (Row αs)}
    {members : List (Option String × Json)} (h : Members height fields row? members)
    (hnames : fields.names.Nodup) (build : Row αs → β) :
    Documents (Json.record fields build) (height + 1) (.object members) (row?.map build) := by
  refine ⟨h.isSound, fun p hp => ?_⟩
  have hrecord : Json.record fields build p (Json.object members).asRead =
      (fields.rowOf p.inner (membersAsRead members)).map build := by
    rw [asRead, Json.record, Fields.rowOf]
    cases fields.gather p.inner (Slots.empty αs) (membersAsRead members) <;> rfl
  rw [hrecord, toOption_map, h.gather hp.inner hnames]

/-! ### Members spread out among others -/

theorem IsSound.members {height : ℕ} {members : List (Option String × Json)}
    (h : IsSound (height + 1) (.object members)) :
    (∀ m ∈ members, m.1.isSome = true) ∧ ∀ m ∈ members, IsSound height m.2 := by
  cases h with
  | object hnames hvalues => exact ⟨hnames, hvalues⟩

theorem IsSound.append {height : ℕ} {own others : List (Option String × Json)}
    (hown : IsSound (height + 1) (.object own)) (hothers : IsSound (height + 1) (.object others)) :
    IsSound (height + 1) (.object (own ++ others)) :=
  .object
    (fun m hm => (List.mem_append.mp hm).elim (hown.members.1 m) (hothers.members.1 m))
    (fun m hm => (List.mem_append.mp hm).elim (hown.members.2 m) (hothers.members.2 m))

/-- A field is passed by where no member has its name. -/
theorem Fields.split_cons {name : String} (d : Decoder α) (absent : Option α)
    (rest : Fields αs) (p : Place) (slot : Option α) :
    ∀ {members : List (Option String × Json)} (slots : Slots αs),
      (∀ m ∈ members, m.1 ≠ some name) →
      (Fields.cons name d absent rest).split p (Slots.cons slot slots) members =
        (rest.split p slots members).map fun r => (Slots.cons slot r.1, r.2)
  | [], _, _ => rfl
  | (none, _) :: _, _, _ => rfl
  | (some other, value) :: members, slots, h => by
    have hne : other ≠ name := fun he => h _ List.mem_cons_self (congrArg some he)
    have ih := fun slots =>
      Fields.split_cons d absent rest p slot slots fun m hm => h m (List.mem_cons_of_mem _ hm)
    simp only [Slots.cons] at ih
    simp only [Fields.split, Slots.cons, Fields.put, hne, if_false]
    cases rest.put p other value slots with
    | unknown =>
      simp only [ih slots]
      cases (p.kept || value.isPlain p.depth)
      · rfl
      · cases rest.split p slots members <;> rfl
    | refused r => rfl
    | read slots => exact ih slots

/-- Sound members are kept whole where no field is left. -/
theorem Fields.split_nil {height : ℕ} {p : Place} (hp : p.HasRoom height) :
    ∀ {members : List (Option String × Json)}, IsSound (height + 1) (.object members) →
      Fields.nil.split p () (membersAsRead members) = .ok ((), membersAsRead members)
  | [], _ => rfl
  | (name, value) :: members, hsound => by
    obtain ⟨hnames, hvalues⟩ := hsound.members
    obtain ⟨name, rfl⟩ := Option.isSome_iff_exists.mp (hnames _ List.mem_cons_self)
    have ih := Fields.split_nil hp (.object (fun m hm => hnames m (List.mem_cons_of_mem _ hm))
      fun m hm => hvalues m (List.mem_cons_of_mem _ hm))
    have hplain := (hvalues _ List.mem_cons_self).plain hp
    simp only [membersAsRead, Fields.split, Fields.put, hplain, if_true]
    rw [ih]
    rfl

/-- The row of the members that have a field, and the other members. -/
def Fields.rowAndOthers (fields : Fields αs) (p : Place) (members : List (Option String × Json)) :
    Except Refusal (Row αs × List (Option String × Json)) :=
  (fields.split p (Slots.empty αs) members).bind fun r =>
    (fields.complete r.1).map fun row => (row, r.2)

theorem Fields.bind_complete_others (name : String) (d : Decoder α) (rest : Fields αs)
    {slot absent : Option α} {a : α} (h : slot.or absent = some a)
    (read : Except Refusal (Slots αs × List (Option String × Json))) :
    ((read.map fun r => (Slots.cons slot r.1, r.2)).bind fun r =>
        ((Fields.cons name d absent rest).complete r.1).map fun row => (row, r.2)) =
      (read.bind fun r => (rest.complete r.1).map fun row => (row, r.2)).map
        fun r => (Row.cons a r.1, r.2) := by
  cases read with
  | error r => rfl
  | ok r =>
    simp only [Except.map, Except.bind, Fields.complete, Slots.cons, h]
    cases rest.complete r.1 <;> rfl

/-- **Members of the fields of a record are told from the others.** -/
theorem Members.split {height : ℕ} {p : Place} (hp : p.HasRoom height) {fields : Fields αs}
    {row? : Option (Row αs)} {own others : List (Option String × Json)}
    (h : Members height fields row? own) (hnames : fields.names.Nodup)
    (hsound : IsSound (height + 1) (.object others)) (hapart : IsApart fields.names others) :
    (fields.rowAndOthers p (membersAsRead (own ++ others))).toOption =
      row?.map fun row => (row, membersAsRead others) := by
  induction h with
  | nil =>
    rw [List.nil_append, Fields.rowAndOthers]
    simp only [Slots.empty, Fields.split_nil hp hsound]
    rfl
  | @given α αs name d absent rest value a? row? own hvalue hrest ih =>
    obtain ⟨hname, hnodup⟩ := List.nodup_cons.mp hnames
    have hrow? := ih hnodup hapart.tail
    have hothers := (hrest.isApart hname).append (hapart.of_mem List.mem_cons_self)
    rw [← hvalue.decodes p hp]
    cases hread : d p value.asRead with
    | error r =>
      simp only [Fields.rowAndOthers, List.cons_append, membersAsRead, member, Slots.empty,
        Fields.split, Fields.put, if_true, hread]
      rfl
    | ok a =>
      have hsplit := Fields.split_cons d absent rest p (some a) (Slots.empty αs) hothers.asRead
      have hrow : (Fields.cons name d absent rest).rowAndOthers p
          (membersAsRead (member name value :: own ++ others)) =
          (rest.rowAndOthers p (membersAsRead (own ++ others))).map
            fun r => (Row.cons a r.1, r.2) := by
        rw [Fields.rowAndOthers, Fields.rowAndOthers,
          ← Fields.bind_complete_others name d rest (Option.some_or ..), ← hsplit]
        simp only [List.cons_append, membersAsRead, member, Slots.empty, Fields.split, Fields.put,
          if_true, hread]
        rfl
      rw [hrow, toOption_map, hrow?]
      cases row? <;> rfl
  | @left α αs name d a rest row? own hrest ih =>
    obtain ⟨hname, hnodup⟩ := List.nodup_cons.mp hnames
    have hothers := (hrest.isApart hname).append (hapart.of_mem List.mem_cons_self)
    have hsplit := Fields.split_cons d (some a) rest p none (Slots.empty αs) hothers.asRead
    have hrow : (Fields.cons name d (some a) rest).rowAndOthers p (membersAsRead (own ++ others)) =
        (rest.rowAndOthers p (membersAsRead (own ++ others))).map
          fun r => (Row.cons a r.1, r.2) := by
      rw [Fields.rowAndOthers, Fields.rowAndOthers,
        ← Fields.bind_complete_others name d rest (Option.none_or ..), ← hsplit]
      rfl
    rw [hrow, toOption_map, ih hnodup hapart.tail]
    cases row? <;> rfl

/-- **Members spread out among others** are a document where no name is given twice. -/
theorem Documents.splitting {height : ℕ} {fields : Fields αs} {row? : Option (Row αs)}
    {own others : List (Option String × Json)} {part : Decoder γ} {c? : Option γ}
    (h : Members height fields row? own) (hnames : fields.names.Nodup)
    (hpart : Documents part (height + 1) (.object others) c?)
    (hapart : IsApart fields.names others) (build : Row αs → γ → β) :
    Documents (Json.splitting fields part build) (height + 1) (.object (own ++ others))
      (row?.bind fun row => c?.map (build row)) := by
  refine ⟨h.isSound.append hpart.sound, fun p hp => ?_⟩
  have hsplitting : Json.splitting fields part build p (Json.object (own ++ others)).asRead =
      (fields.rowAndOthers p.inner (membersAsRead (own ++ others))).bind fun r =>
        (part { p with kept := true } (.object r.2)).map (build r.1) := by
    rw [asRead, Json.splitting, Fields.rowAndOthers]
    cases fields.split p.inner (Slots.empty αs) (membersAsRead (own ++ others)) with
    | error r => rfl
    | ok r =>
      simp only [bind, Except.bind, Except.map]
      cases fields.complete r.1 <;> rfl
  have hrow := h.split hp.inner hnames hpart.sound hapart
  have hdecodes := hpart.decodes { p with kept := true } (p.hasRoom_kept _)
  rw [asRead] at hdecodes
  rw [hsplitting]
  cases row? with
  | none =>
    obtain ⟨r, hr⟩ := toOption_eq_none hrow
    rw [hr]
    rfl
  | some row =>
    rw [toOption_eq_some hrow, ← hdecodes]
    exact toOption_map _ _

/-! ### Tagged values -/

theorem findTag_others {height : ℕ} {p : Place} (hp : p.HasRoom height) {tag : String}
    (d : Decoder κ) (k : Option κ) :
    ∀ {others : List (Option String × Json)}, IsSound (height + 1) (.object others) →
      IsApart [tag] others →
      findTag p tag d k (membersAsRead others) = .ok (k, membersAsRead others)
  | [], _, _ => rfl
  | (name, value) :: others, hsound, hapart => by
    obtain ⟨hnames, hvalues⟩ := hsound.members
    obtain ⟨name, rfl⟩ := Option.isSome_iff_exists.mp (hnames _ List.mem_cons_self)
    have hne : name ≠ tag := fun he =>
      hapart _ List.mem_cons_self tag List.mem_cons_self (congrArg some he)
    have ih := findTag_others hp d k
      (.object (fun m hm => hnames m (List.mem_cons_of_mem _ hm))
        fun m hm => hvalues m (List.mem_cons_of_mem _ hm))
      fun m hm => hapart m (List.mem_cons_of_mem _ hm)
    have hplain := (hvalues _ List.mem_cons_self).plain hp
    simp only [membersAsRead, findTag, hne, if_false, hplain, if_true, ih]
    rfl

/-- **Members behind a tag** are a document of the kind that the tag tells. -/
theorem Documents.tagged {height : ℕ} {tag : String} {d : Decoder κ} {value : Json} {k : κ}
    {payload : κ → Decoder β} {others : List (Option String × Json)} {b? : Option β}
    (hvalue : Documents d height value (some k))
    (hpayload : Documents (payload k) (height + 1) (.object others) b?)
    (hapart : IsApart [tag] others) :
    Documents (Json.tagged tag d payload) (height + 1) (.object (member tag value :: others))
      b? := by
  constructor
  · obtain ⟨hnames, hvalues⟩ := hpayload.sound.members
    exact .object (List.forall_mem_cons.mpr ⟨rfl, hnames⟩)
      (List.forall_mem_cons.mpr ⟨hvalue.sound, hvalues⟩)
  · intro p hp
    have htag := toOption_eq_some (hvalue.decodes p.inner hp.inner)
    have hothers := findTag_others hp.inner d (some k) hpayload.sound hapart
    rw [← hpayload.decodes { p with kept := true } (p.hasRoom_kept _), asRead, asRead,
      membersAsRead]
    simp only [member, Json.tagged, findTag, if_true, htag, bind, Except.bind, hothers]
    rfl

/-! ### Values under a condition

Where a part is a document under a condition only, so is the whole, under all conditions of its
parts together. -/

section Conditions

variable {height : ℕ} {d : Decoder α} {j : Json} {a : α} {ok ok' : Bool}

theorem Documents.map {a? : Option α} (h : Documents d height j a?) (f : α → β) :
    Documents (fun p j => (d p j).map f) height j (a?.map f) :=
  ⟨h.sound, fun p hp => by rw [toOption_map, h.decodes p hp]⟩

theorem Documents.map_if (h : Documents d height j (if ok then some a else none)) (f : α → β) :
    Documents (fun p j => (d p j).map f) height j (if ok then some (f a) else none) := by
  have hmap := h.map f
  cases ok <;> exact hmap

theorem Documents.optional_if (h : Documents d height j (if ok then some a else none))
    (hnull : j.asRead ≠ .null) :
    Documents (Json.optional d) height j (if ok then some (some a) else none) := by
  have hoptional := h.optional hnull
  cases ok <;> exact hoptional

theorem Documents.list_if {toJson : β → Json} {f : β → α} {holds : β → Bool} {bs : List β}
    (h : ∀ b ∈ bs, Documents d height (toJson b) (if holds b then some (f b) else none)) :
    Documents (Json.list d) (height + 1) (ofList toJson bs)
      (if bs.all holds then some (bs.map f) else none) := by
  have hall : (bs.mapM fun b => if holds b then some (f b) else none) =
      if bs.all holds then some (bs.map f) else none := by
    clear h
    induction bs with
    | nil => rfl
    | cons b bs ih =>
      rw [List.mapM_cons, ih, List.all_cons]
      cases holds b <;> cases bs.all holds <;> rfl
  exact hall ▸ Documents.list h

variable {name : String} {absent : Option α} {fields : Fields αs} {row : Row αs}
  {members : List (Option String × Json)}

theorem Members.if_true (h : Members height fields (some row) members) :
    Members height fields (if true then some row else none) members := h

theorem Members.cons_if {value : Json} (hvalue : Documents d height value (some a))
    (hrest : Members height fields (if ok then some row else none) members) :
    Members height (.cons name d absent fields) (if ok then some (Row.cons a row) else none)
      (member name value :: members) := by
  cases ok <;> exact .given hvalue hrest

theorem Members.given_if {value : Json}
    (hvalue : Documents d height value (if ok then some a else none))
    (hrest : Members height fields (if ok' then some row else none) members) :
    Members height (.cons name d absent fields)
      (if ok && ok' then some (Row.cons a row) else none) (member name value :: members) := by
  cases ok <;> cases ok' <;> exact .given hvalue hrest

theorem Members.left_if (hrest : Members height fields (if ok then some row else none) members) :
    Members height (.cons name d (some a) fields) (if ok then some (Row.cons a row) else none)
      members := by
  cases ok <;> exact .left hrest

/-- An optional value is given if there is one, and else left out. -/
theorem Members.optional_if {d : Decoder (Option α)} {toJson : β → Json} {f : β → α}
    {holds : β → Bool} {o : Option β}
    (hvalue : ∀ b, o = some b →
      Documents d height (toJson b) (if holds b then some (some (f b)) else none))
    (hrest : Members height fields (if ok then some row else none) members) :
    Members height (.cons name d (some none) fields)
      (if o.all holds && ok then some (Row.cons (o.map f) row) else none)
      (member? name toJson o ++ members) := by
  cases o with
  | none => cases ok <;> exact .left hrest
  | some b => exact Members.given_if (hvalue b rfl) hrest

theorem Members.optional_some {d : Decoder (Option α)} {toJson : α → Json} {o : Option α}
    (hvalue : ∀ a, o = some a → Documents d height (toJson a) (some (some a)))
    (hrest : Members height fields (if ok then some row else none) members) :
    Members height (.cons name d (some none) fields)
      (if ok then some (Row.cons o row) else none) (member? name toJson o ++ members) := by
  cases o with
  | none => exact Members.left_if hrest
  | some a => exact Members.cons_if (hvalue a rfl) hrest

theorem Documents.record_if (h : Members height fields (if ok then some row else none) members)
    (hnames : fields.names.Nodup) (build : Row αs → β) :
    Documents (Json.record fields build) (height + 1) (.object members)
      (if ok then some (build row) else none) := by
  have hrecord := Documents.record h hnames build
  cases ok <;> exact hrecord

theorem Documents.splitting_if {own others : List (Option String × Json)} {part : Decoder γ}
    {c : γ} (h : Members height fields (some row) own) (hnames : fields.names.Nodup)
    (hpart : Documents part (height + 1) (.object others) (if ok then some c else none))
    (hapart : IsApart fields.names others) (build : Row αs → γ → β) :
    Documents (Json.splitting fields part build) (height + 1) (.object (own ++ others))
      (if ok then some (build row c) else none) := by
  have hsplitting := Documents.splitting h hnames hpart hapart build
  cases ok <;> exact hsplitting

end Conditions

end QuotaWatch.Json
