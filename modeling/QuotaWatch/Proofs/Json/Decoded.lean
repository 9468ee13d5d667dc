/-
# What was decoded

A value that was decoded was decoded from its parts. Every part of a record came from the
decoder of its field or stands for an absent one (`Fields.Offers`, `record_eq_ok`); a part
that is spread out, the payload behind a tag and the values of a list came from theirs. So
what holds of every value of a decoder holds of every value put together from it.

Key definitions: `Fields.Offers`, `Fields.Fills`, `RoundTrips`.
Key theorems: `record_eq_ok`, `splitting_eq_ok`, `tagged_eq_ok`, `list_eq_ok`,
`RoundTrips.of_documents`.
-/
import QuotaWatch.Proofs.Json.Documents

namespace QuotaWatch.Json

variable {α β γ κ : Type} {αs : List Type}

/-- A row whose values came from the decoders of their fields or stand for absent ones. -/
inductive Fields.Offers : {αs : List Type} → Fields αs → Row αs → Prop where
  | nil : Fields.Offers .nil ()
  | read {α : Type} {αs : List Type} {name : String} {d : Decoder α} {absent : Option α}
      {rest : Fields αs} {a : α} {row : Row αs} {p : Place} {j : Json} (h : d p j = .ok a)
      (hrest : rest.Offers row) : Fields.Offers (.cons name d absent rest) (Row.cons a row)
  | absent {α : Type} {αs : List Type} {name : String} {d : Decoder α} {a : α}
      {rest : Fields αs} {row : Row αs} (hrest : rest.Offers row) :
      Fields.Offers (.cons name d (some a) rest) (Row.cons a row)

/-- A field that must be there has a value from its decoder. -/
theorem Fields.Offers.of_need {name : String} {d : Decoder α} {rest : Fields αs}
    {row : Row (α :: αs)} (h : (need name d rest).Offers row) :
    (∃ p j, d p j = .ok row.1) ∧ rest.Offers row.2 := by
  cases h with
  | read hread hrest => exact ⟨⟨_, _, hread⟩, hrest⟩

/-- A field that may be absent has a value from its decoder, or that of its absence. -/
theorem Fields.Offers.of_may {name : String} {d : Decoder α} {absent : α} {rest : Fields αs}
    {row : Row (α :: αs)} (h : (may name d absent rest).Offers row) :
    ((∃ p j, d p j = .ok row.1) ∨ row.1 = absent) ∧ rest.Offers row.2 := by
  cases h with
  | read hread hrest => exact ⟨Or.inl ⟨_, _, hread⟩, hrest⟩
  | absent hrest => exact ⟨Or.inr rfl, hrest⟩

/-- Slots that are empty or were filled by the decoders of their fields. -/
inductive Fields.Fills : {αs : List Type} → Fields αs → Slots αs → Prop where
  | nil : Fields.Fills .nil ()
  | empty {α : Type} {αs : List Type} {name : String} {d : Decoder α} {absent : Option α}
      {rest : Fields αs} {slots : Slots αs} (hrest : rest.Fills slots) :
      Fields.Fills (.cons name d absent rest) (Slots.cons none slots)
  | read {α : Type} {αs : List Type} {name : String} {d : Decoder α} {absent : Option α}
      {rest : Fields αs} {a : α} {slots : Slots αs} {p : Place} {j : Json} (h : d p j = .ok a)
      (hrest : rest.Fills slots) : Fields.Fills (.cons name d absent rest) (Slots.cons (some a) slots)

theorem Fields.fills_empty : ∀ {αs : List Type} (fields : Fields αs), fields.Fills (Slots.empty αs)
  | _, .nil => .nil
  | _, .cons _ _ _ rest => .empty rest.fills_empty

section Fills

variable {fields : Fields αs} {slots slots' : Slots αs} {p : Place}

theorem Fields.Fills.put (h : fields.Fills slots) {name : String} {value : Json}
    (hput : fields.put p name value slots = .read slots') : fields.Fills slots' := by
  induction h with
  | nil => cases hput
  | @empty α αs field d absent rest slots hrest ih =>
    simp only [Fields.put, Slots.cons] at hput
    split at hput
    · cases hread : d p value with
      | error r => simp [hread] at hput
      | ok a =>
        simp only [hread, Option.isSome_none, Bool.false_eq_true, if_false] at hput
        cases hput
        exact .read hread hrest
    · cases hstep : rest.put p name value slots with
      | unknown => simp [hstep] at hput
      | refused r => simp [hstep] at hput
      | read slots' =>
        simp only [hstep] at hput
        cases hput
        exact .empty (ih hstep)
  | @read α αs field d absent rest a slots p' j hd hrest ih =>
    simp only [Fields.put, Slots.cons] at hput
    split at hput
    · simp at hput
    · cases hstep : rest.put p name value slots with
      | unknown => simp [hstep] at hput
      | refused r => simp [hstep] at hput
      | read slots' =>
        simp only [hstep] at hput
        cases hput
        exact .read hd (ih hstep)

theorem Fields.Fills.gather (h : fields.Fills slots) {members : List (Option String × Json)}
    (hgather : fields.gather p slots members = .ok slots') : fields.Fills slots' := by
  induction members generalizing slots with
  | nil => cases hgather; exact h
  | cons m members ih =>
    obtain ⟨name, value⟩ := m
    cases name with
    | none => cases hgather
    | some name =>
      rw [Fields.gather] at hgather
      split at hgather
      · rename_i hput
        exact ih (h.put hput) hgather
      · cases hgather
      · split at hgather
        · exact ih h hgather
        · cases hgather

theorem Fields.Fills.split (h : fields.Fills slots) {members others : List (Option String × Json)}
    (hsplit : fields.split p slots members = .ok (slots', others)) : fields.Fills slots' := by
  induction members generalizing slots others with
  | nil => cases hsplit; exact h
  | cons m members ih =>
    obtain ⟨name, value⟩ := m
    cases name with
    | none => cases hsplit
    | some name =>
      rw [Fields.split] at hsplit
      split at hsplit
      · rename_i hput
        exact ih (h.put hput) hsplit
      · cases hsplit
      · split at hsplit
        · cases hrest : fields.split p slots members with
          | error r => simp [hrest, bind, Except.bind] at hsplit
          | ok r =>
            simp only [hrest, bind, Except.bind, Except.ok.injEq, Prod.mk.injEq] at hsplit
            obtain ⟨rfl, -⟩ := hsplit
            exact ih h hrest
        · cases hsplit

theorem Fields.Fills.complete (h : fields.Fills slots) {row : Row αs}
    (hcomplete : fields.complete slots = .ok row) : fields.Offers row := by
  induction h with
  | nil => exact .nil
  | @empty α αs name d absent rest slots hrest ih =>
    simp only [Fields.complete, Slots.cons, Option.none_or] at hcomplete
    cases absent with
    | none => cases hcomplete
    | some a =>
      cases hrow : rest.complete slots with
      | error r => simp [hrow, Except.map] at hcomplete
      | ok row =>
        simp only [hrow, Except.map] at hcomplete
        cases hcomplete
        exact .absent (ih hrow)
  | @read α αs name d absent rest a slots p' j hd hrest ih =>
    simp only [Fields.complete, Slots.cons, Option.some_or] at hcomplete
    cases hrow : rest.complete slots with
    | error r => simp [hrow, Except.map] at hcomplete
    | ok row =>
      simp only [hrow, Except.map] at hcomplete
      cases hcomplete
      exact .read hd (ih hrow)

end Fills

theorem Fields.offers_inOrder {p : Place} : ∀ {αs : List Type} {fields : Fields αs}
    {items : List Json} {row : Row αs}, fields.inOrder p items = .ok row → fields.Offers row
  | _, .nil, [], _, _ => .nil
  | _, .nil, _ :: _, _, h => by cases h
  | _, .cons _ _ none _, [], _, h => by cases h
  | _, .cons _ _ (some a) rest, [], _, h => by
    cases hrow : rest.inOrder p [] with
    | error r => simp [Fields.inOrder, hrow, Except.map] at h
    | ok row =>
      simp only [Fields.inOrder, hrow, Except.map] at h
      cases h
      exact .absent (Fields.offers_inOrder hrow)
  | _, .cons _ d absent rest, item :: items, _, h => by
    cases hread : d p item with
    | error r => simp [Fields.inOrder, hread, bind, Except.bind] at h
    | ok a =>
      cases hrow : rest.inOrder p items with
      | error r => simp [Fields.inOrder, hread, hrow, bind, Except.bind] at h
      | ok row =>
        simp only [Fields.inOrder, hread, hrow, bind, Except.bind] at h
        cases h
        exact .read hread (Fields.offers_inOrder hrow)

/-- **Every part of a record came from its decoder** or stands for an absent one. -/
theorem record_eq_ok {fields : Fields αs} {build : Row αs → β} {p : Place} {j : Json} {b : β}
    (h : record fields build p j = .ok b) : ∃ row, fields.Offers row ∧ b = build row := by
  cases j with
  | object members =>
    simp only [record, bind, Except.bind] at h
    cases hgather : fields.gather p.inner (Slots.empty αs) members with
    | error r => simp [hgather] at h
    | ok slots =>
      cases hrow : fields.complete slots with
      | error r => simp [hgather, hrow, Except.map] at h
      | ok row =>
        simp only [hgather, hrow, Except.map, Except.ok.injEq] at h
        exact ⟨row, (fields.fills_empty.gather hgather).complete hrow, h.symm⟩
  | array items =>
    simp only [record] at h
    cases hrow : fields.inOrder p.inner items with
    | error r => simp [hrow, Except.map] at h
    | ok row =>
      simp only [hrow, Except.map, Except.ok.injEq] at h
      exact ⟨row, Fields.offers_inOrder hrow, h.symm⟩
  | _ => cases h

theorem splitting_eq_ok {fields : Fields αs} {part : Decoder γ} {build : Row αs → γ → β}
    {p : Place} {j : Json} {b : β} (h : splitting fields part build p j = .ok b) :
    ∃ row c p' j', fields.Offers row ∧ part p' j' = .ok c ∧ b = build row c := by
  cases j with
  | object members =>
    simp only [splitting, bind, Except.bind] at h
    cases hsplit : fields.split p.inner (Slots.empty αs) members with
    | error r => simp [hsplit] at h
    | ok r =>
      obtain ⟨slots, others⟩ := r
      cases hrow : fields.complete slots with
      | error r => simp [hsplit, hrow] at h
      | ok row =>
        cases hpart : part { p with kept := true } (.object others) with
        | error r => simp [hsplit, hrow, hpart] at h
        | ok c =>
          simp only [hsplit, hrow, hpart, Except.ok.injEq] at h
          exact ⟨row, c, _, _, (fields.fills_empty.split hsplit).complete hrow, hpart, h.symm⟩
  | _ => cases h

theorem tagged_eq_ok {tag : String} {d : Decoder κ} {payload : κ → Decoder β} {p : Place}
    {j : Json} {b : β} (h : tagged tag d payload p j = .ok b) :
    ∃ k p' j', payload k p' j' = .ok b := by
  cases j with
  | object members =>
    simp only [tagged, bind, Except.bind] at h
    cases hfind : findTag p.inner tag d none members with
    | error r => simp [hfind] at h
    | ok r =>
      obtain ⟨k, others⟩ := r
      cases k with
      | none => simp [hfind] at h
      | some k => exact ⟨k, _, _, by simpa [hfind] using h⟩
  | array items =>
    cases items with
    | nil => cases h
    | cons first items =>
      simp only [tagged, bind, Except.bind] at h
      cases hfirst : d p.inner first with
      | error r => simp [hfirst] at h
      | ok k =>
        simp only [hfirst] at h
        split at h
        · exact ⟨k, _, _, h⟩
        · cases h
  | _ => cases h

theorem list_eq_ok {d : Decoder α} {p : Place} {j : Json} {as : List α}
    (h : list d p j = .ok as) : ∀ a ∈ as, ∃ p' j', d p' j' = .ok a := by
  cases j with
  | array items =>
    simp only [list] at h
    induction items generalizing as with
    | nil => cases h; exact fun a ha => by cases ha
    | cons item items ih =>
      simp only [listItems, bind, Except.bind] at h
      cases hitem : d p.inner item with
      | error r => simp [hitem] at h
      | ok a =>
        cases hitems : listItems d p.inner items with
        | error r => simp [hitem, hitems] at h
        | ok rest =>
          simp only [hitem, hitems, Except.ok.injEq] at h
          subst h
          exact List.forall_mem_cons.mpr ⟨⟨_, _, hitem⟩, ih hitems⟩
  | _ => cases h

theorem named_eq_ok {f : String → Option α} {p : Place} {j : Json} {a : α}
    (h : named f p j = .ok a) : ∃ s, f s = some a := by
  simp only [named, bind, Except.bind] at h
  cases hs : string p j with
  | error r => simp [hs] at h
  | ok s =>
    simp only [hs] at h
    split at h
    · rename_i hf
      cases h
      exact ⟨s, hf⟩
    · cases h

theorem decodeText_eq_ok {d : Decoder α} {text : String} {a : α}
    (h : decodeText d text = .ok a) : ∃ p j, d p j = .ok a := by
  unfold decodeText at h
  split at h
  · rename_i j rest _
    cases hj : d {} j with
    | error r => simp [hj, bind, Except.bind] at h
    | ok b =>
      simp only [hj, bind, Except.bind] at h
      split at h
      · cases h
        exact ⟨_, _, hj⟩
      · cases h
  · rename_i j _
    cases hj : d {} j <;> simp [hj, bind, Except.bind] at h

/-! ### Round trips -/

/-- Every value of a kind has a text and is read back from it, no two have the same text, and
what was read from any text is read again from its own. -/
structure RoundTrips (toJson : α → Json) (decode : Decoder α) (IsValue : α → Prop) : Prop where
  reads : ∀ a, IsValue a →
    ∃ text, (toJson a).toText? = some text ∧ decodeText decode text = .ok a
  injective : ∀ a b, IsValue a → IsValue b → (toJson a).toText? = (toJson b).toText? → a = b
  stable : ∀ text a, decodeText decode text = .ok a →
    ∃ text', (toJson a).toText? = some text' ∧ decodeText decode text' = .ok a

/-- Documents of the values that the decoder gives make a round trip. -/
theorem RoundTrips.of_documents {toJson : α → Json} {decode : Decoder α} {IsValue : α → Prop}
    {height : ℕ} (hheight : height ≤ maxDepth)
    (hdocuments : ∀ a, IsValue a → Documents decode height (toJson a) (some a))
    (hdecoded : ∀ p j a, decode p j = .ok a → IsValue a) : RoundTrips toJson decode IsValue := by
  have hreads : ∀ a, IsValue a →
      ∃ text, (toJson a).toText? = some text ∧ decodeText decode text = .ok a :=
    fun a ha => ⟨_, (hdocuments a ha).toText?_eq, (hdocuments a ha).decodeText_eq hheight⟩
  refine ⟨hreads, fun a b ha hb heq => ?_, fun text a ha => ?_⟩
  · obtain ⟨text, htext, hread⟩ := hreads a ha
    obtain ⟨text', htext', hread'⟩ := hreads b hb
    obtain rfl : text = text' := Option.some.inj (htext.symm.trans (heq.trans htext'))
    exact Except.ok.inj (hread.symm.trans hread')
  · obtain ⟨p, j, hj⟩ := decodeText_eq_ok ha
    exact hreads a (hdecoded p j a hj)

end QuotaWatch.Json
