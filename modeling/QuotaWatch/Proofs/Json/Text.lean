/-
# The text of a value read back

Reading a text that was written stops exactly behind it, whatever value follows, so a
document is taken apart where it was put together (`readValue_write`). Strings come back
character by character. A number comes back as whatever its digits stand for, and what has
no number in JSON comes back as `null`; so the tree that is read is the one that was
written, but for its numbers (`asRead`).

Key definitions: `Number.asRead`, `asRead`, `Number.IsWritable`, `IsSound`, `IsBehind`.
Key theorems: `Number.read_append`, `readString_writeString`, `readValue_write`,
`decodeText_toText`, `isText_of_isSound`, `isPlain_asRead`.
-/
import Mathlib.Data.List.TakeWhile
import Mathlib.Tactic.Linarith
import QuotaWatch.Json.Decoder
import QuotaWatch.Json.Writer
import QuotaWatch.Proofs.Decimal.Digits

namespace QuotaWatch

namespace Json

open Decimal

/-! ### What a text is read as -/

/-- What the text of a number is read as: a number, or `null`. -/
def Number.asRead (n : Number) : Json :=
  match Number.read n.write with
  | some (m, _) => .number m
  | none => .null

/-- A number that is written as a number within the floats or as `null`, with nothing left over. -/
def Number.IsWritable (n : Number) : Prop :=
  n.write = nullWord ∨ ∃ m, Number.read n.write = some (m, []) ∧ m ≠ .excessive

mutual

/-- What the text of a value is read as: the same value with its numbers as they are read. -/
def asRead : Json → Json
  | .number n => n.asRead
  | .array items => .array (itemsAsRead items)
  | .object members => .object (membersAsRead members)
  | j => j

/-- The values of a list as they are read. -/
def itemsAsRead : List Json → List Json
  | [] => []
  | item :: items => item.asRead :: itemsAsRead items

/-- The members of a list as they are read. -/
def membersAsRead : List (Option String × Json) → List (Option String × Json)
  | [] => []
  | (name, value) :: members => (name, value.asRead) :: membersAsRead members

end

theorem itemsAsRead_eq : ∀ items : List Json, itemsAsRead items = items.map asRead
  | [] => rfl
  | _ :: items => by rw [itemsAsRead, itemsAsRead_eq items, List.map_cons]

theorem membersAsRead_eq : ∀ members : List (Option String × Json),
    membersAsRead members = members.map fun m => (m.1, m.2.asRead)
  | [] => rfl
  | (_, _) :: members => by rw [membersAsRead, membersAsRead_eq members, List.map_cons]

theorem asRead_array (items : List Json) :
    (Json.array items).asRead = .array (items.map asRead) := by
  rw [asRead, itemsAsRead_eq]

theorem asRead_object (members : List (Option String × Json)) :
    (Json.object members).asRead = .object (members.map fun m => (m.1, m.2.asRead)) := by
  rw [asRead, membersAsRead_eq]

@[simp] theorem asRead_ofString (s : String) : (ofString s).asRead = ofString s := rfl

/-- A value with at most `height` containers within each other, all strings texts and all
numbers writable. -/
inductive IsSound : Nat → Json → Prop where
  | null {height : Nat} : IsSound height .null
  | bool {height : Nat} (b : Bool) : IsSound height (.bool b)
  | number {height : Nat} {n : Number} (hn : n.IsWritable) : IsSound height (.number n)
  | text {height : Nat} (s : String) : IsSound height (.text (some s))
  | array {height : Nat} {items : List Json} (hitems : ∀ item ∈ items, IsSound height item) :
      IsSound (height + 1) (.array items)
  | object {height : Nat} {members : List (Option String × Json)}
      (hnames : ∀ m ∈ members, m.1.isSome = true)
      (hvalues : ∀ m ∈ members, IsSound height m.2) : IsSound (height + 1) (.object members)

/-- What may follow a value in a written text: its end, or a mark. -/
def IsBehind (rest : List Char) : Prop :=
  ∀ c, rest.head? = some c → c = ',' ∨ c = ']' ∨ c = '\x7d'

theorem isBehind_nil : IsBehind [] := fun c h => by cases h

theorem isBehind_cons {c : Char} (h : c = ',' ∨ c = ']' ∨ c = '\x7d') (rest : List Char) :
    IsBehind (c :: rest) := fun d hd => by cases hd; exact h

/-! ### Numbers

A reader that is given more text than it needs leaves the same rest, with the other text
behind it. -/

section Locality

variable {more : List Char} (hmore : IsBehind more)
include hmore

theorem takeWhile_isDigit_behind : more.takeWhile Char.isDigit = [] := by
  cases more with
  | nil => rfl
  | cons c cs =>
    have hdigit : c.isDigit = false := by
      rcases hmore c rfl with rfl | rfl | rfl <;> rfl
    simp [hdigit]

theorem dropWhile_isDigit_behind : more.dropWhile Char.isDigit = more := by
  have h := List.takeWhile_append_dropWhile (p := Char.isDigit) (l := more)
  rwa [takeWhile_isDigit_behind hmore, List.nil_append] at h

theorem digitRun_append (cs : List Char) :
    digitRun (cs ++ more) = ((digitRun cs).1, (digitRun cs).2 ++ more) := by
  induction cs with
  | nil =>
    simp [digitRun, takeWhile_isDigit_behind hmore, dropWhile_isDigit_behind hmore]
  | cons c cs ih =>
    simp only [digitRun, Prod.mk.injEq] at ih
    by_cases hc : c.isDigit = true
    · simp [digitRun, hc, ih.1, ih.2]
    · simp [digitRun, hc]

theorem readExponent_append {cs rest : List Char} {exponent : Int}
    (h : readExponent cs = some (exponent, rest)) :
    readExponent (cs ++ more) = some (exponent, rest ++ more) := by
  cases cs with
  | nil => simp [readExponent, digitRun] at h
  | cons c cs =>
    have hwhole := digitRun_append hmore (c :: cs)
    have hbehind := digitRun_append hmore cs
    rw [List.cons_append] at hwhole ⊢
    unfold readExponent at h ⊢
    by_cases hminus : c = '-'
    · subst hminus
      simpa [hbehind] using h
    by_cases hplus : c = '+'
    · subst hplus
      simpa [hbehind] using h
    simpa [hminus, hplus, hwhole] using h

theorem readScale_append {isBelow : Bool} {significand : ℕ} {start : Int} {cs rest : List Char}
    {n : Number} (h : readScale isBelow significand start cs = some (n, rest)) :
    readScale isBelow significand start (cs ++ more) = some (n, rest ++ more) := by
  have hscale : ∀ {cs rest : List Char} {n : Number},
      (readExponent cs).map (fun read =>
        (Number.ofExponent isBelow significand start read.1, read.2)) = some (n, rest) →
      (readExponent (cs ++ more)).map (fun read =>
        (Number.ofExponent isBelow significand start read.1, read.2)) = some (n, rest ++ more) := by
    intro cs rest n h
    obtain ⟨⟨exponent, rest'⟩, hread, heq⟩ := Option.map_eq_some_iff.mp h
    cases heq
    rw [readExponent_append hmore hread]
    rfl
  cases cs with
  | nil =>
    cases h
    cases more with
    | nil => rfl
    | cons c cs => rcases hmore c rfl with rfl | rfl | rfl <;> rfl
  | cons c cs =>
    rw [List.cons_append]
    unfold readScale at h ⊢
    split at h
    · rename_i heq
      cases heq
      exact hscale h
    · rename_i heq
      cases heq
      exact hscale h
    · rename_i he hE
      cases h
      split
      · rename_i heq
        cases heq
        exact absurd rfl (he cs)
      · rename_i heq
        cases heq
        exact absurd rfl (hE cs)
      · rfl

theorem readFraction_append {isBelow : Bool} {whole cs rest : List Char} {n : Number}
    (h : readFraction isBelow whole cs = some (n, rest)) :
    readFraction isBelow whole (cs ++ more) = some (n, rest ++ more) := by
  rcases hgather : gather 0 whole with ⟨significand, left⟩
  cases cs with
  | nil =>
    cases more with
    | nil => rwa [List.append_nil, List.append_nil]
    | cons c cs =>
      unfold readFraction at h ⊢
      simp only [hgather] at h ⊢
      have hwhole : (if left == 0 then some (Number.ofWhole isBelow significand, c :: cs)
          else some (Number.ofParts isBelow significand left, c :: cs)) =
          some (n, rest ++ c :: cs) := by
        split at h <;> cases h <;> simp_all
      rcases hmore c rfl with rfl | rfl | rfl <;> exact hwhole
  | cons c cs =>
    rw [List.cons_append]
    unfold readFraction at h ⊢
    simp only [hgather] at h ⊢
    split at h
    · rename_i heq
      cases heq
      simp only [digitRun_append hmore]
      split at h
      · cases h
      · rename_i hrun
        rw [if_neg hrun]
        exact readScale_append hmore h
    · rename_i heq
      cases heq
      exact readScale_append hmore h
    · rename_i heq
      cases heq
      exact readScale_append hmore h
    · rename_i hpoint he hE
      split
      · rename_i heq
        cases heq
        exact absurd rfl (hpoint cs)
      · rename_i heq
        cases heq
        exact absurd rfl (he cs)
      · rename_i heq
        cases heq
        exact absurd rfl (hE cs)
      · split at h <;> cases h <;> simp_all

theorem readUnsigned_append {isBelow : Bool} {cs rest : List Char} {n : Number}
    (h : readUnsigned isBelow cs = some (n, rest)) :
    readUnsigned isBelow (cs ++ more) = some (n, rest ++ more) := by
  unfold readUnsigned at h ⊢
  simp only [digitRun_append hmore] at h ⊢
  split at h
  · cases h
  · rename_i hrun
    rw [if_neg hrun]
    exact readFraction_append hmore h

/-- **A number is read up to its end**, whatever value follows. -/
theorem Number.read_append {cs rest : List Char} {n : Number}
    (h : Number.read cs = some (n, rest)) : Number.read (cs ++ more) = some (n, rest ++ more) := by
  cases cs with
  | nil => simp [Number.read, readUnsigned, digitRun] at h
  | cons c cs =>
    rw [List.cons_append]
    unfold Number.read at h ⊢
    split at h
    · rename_i heq
      cases heq
      exact readUnsigned_append hmore h
    · rename_i hminus
      split
      · rename_i heq
        cases heq
        exact absurd rfl (hminus cs)
      · exact readUnsigned_append hmore h

end Locality

/-- A number starts with a digit or a minus sign. -/
theorem Number.head_of_read {cs : List Char} {r : Number × List Char}
    (h : Number.read cs = some r) : ∃ c rest, cs = c :: rest ∧ (c = '-' ∨ c.isDigit = true) := by
  cases cs with
  | nil => simp [Number.read, readUnsigned, digitRun] at h
  | cons c rest =>
    refine ⟨c, rest, rfl, ?_⟩
    by_contra hno
    obtain ⟨hminus, hdigit⟩ := not_or.mp hno
    simp [Number.read, hminus, readUnsigned, digitRun, hdigit] at h

/-- Digits of a word are all gathered. -/
theorem gather_eq : ∀ (ds : List Char) (n : ℕ), Nat.ofDigitChars 10 ds n ≤ maxWord →
    gather n ds = (Nat.ofDigitChars 10 ds n, 0)
  | [], n, _ => rfl
  | d :: ds, n, h => by
    rw [Nat.ofDigitChars_cons] at h ⊢
    have hnext : n * 10 + value [d] = 10 * n + (d.toNat - '0'.toNat) := by
      rw [value, Nat.ofDigitChars_cons, Nat.ofDigitChars_nil]
      omega
    have hle : 10 * n + (d.toNat - '0'.toNat) ≤ maxWord := by
      rw [Nat.ofDigitChars_eq_ofDigitChars_zero] at h
      have hpos : 1 ≤ 10 ^ ds.length := Nat.one_le_pow _ _ (by decide)
      nlinarith [Nat.zero_le (Nat.ofDigitChars 10 ds 0)]
    rw [gather, hnext, if_pos hle, gather_eq ds _ h]

/-- **A word is read as it is written.** -/
theorem Number.read_unsigned (n : UInt64) :
    Number.read (Number.unsigned n).write = some (.unsigned n, []) := by
  have hdigits := isDigit_ofNat n.toNat
  obtain ⟨c, cs, hcons⟩ := List.exists_cons_of_ne_nil (Nat.toDigits_ne_nil (n := n.toNat) (b := 10))
  have hminus : ∀ rest, ofNat n.toNat ≠ '-' :: rest := fun rest h => by
    have := hdigits '-' (h ▸ List.mem_cons_self)
    contradiction
  have hrun : digitRun (ofNat n.toNat) = (ofNat n.toNat, []) := by
    rw [digitRun, List.takeWhile_eq_self_iff.mpr hdigits, List.dropWhile_eq_nil_iff.mpr hdigits]
  have hzero : ((ofNat n.toNat).isEmpty ||
      (decide ((ofNat n.toNat).length > 1) && (ofNat n.toNat).head? == some '0')) = false := by
    rcases Nat.eq_zero_or_pos n.toNat with hn | hn
    · rw [hn]; rfl
    · have hhead := head?_ofNat hn
      have hne : ofNat n.toNat ≠ [] := by rw [ofNat, hcons]; exact List.cons_ne_nil c cs
      simp [hhead, hne]
  have hgather : gather 0 (ofNat n.toNat) = (n.toNat, 0) := by
    have hvalue : Nat.ofDigitChars 10 (ofNat n.toNat) 0 = n.toNat := value_ofNat n.toNat
    rw [gather_eq _ 0 (by rw [hvalue]; have := n.toNat_lt; unfold maxWord; omega), hvalue]
  have hread : readUnsigned false (ofNat n.toNat) = some (.unsigned n, []) := by
    unfold readUnsigned
    simp only [hrun, hzero]
    simp [readFraction, hgather, Number.ofWhole]
  rw [Number.write, Number.read]
  · exact hread
  · exact hminus

theorem Number.isWritable_unsigned (n : UInt64) : (Number.unsigned n).IsWritable :=
  Or.inr ⟨.unsigned n, read_unsigned n, fun h => by cases h⟩

@[simp] theorem asRead_ofWord (n : UInt64) : (ofWord n).asRead = ofWord n := by
  simp only [ofWord, asRead, Number.asRead, Number.read_unsigned]

/-! ### Strings -/

/-- A character of a string as it is read back: by its number if it is written so. -/
def pieceOf (c : Char) : Piece :=
  if c.toNat < 32 ∧ c ≠ '\x08' ∧ c ≠ '\x0c' ∧ c ≠ '\n' ∧ c ≠ '\r' ∧ c ≠ '\t' then .unit c.toNat
  else .plain c

theorem hexNumber?_small : ∀ n < 32,
    Text.hexNumber? 0 ['0', '0', Nat.digitChar (n / 16), Nat.digitChar (n % 16)] = some n := by
  decide

theorem readPieces_writeChar (c : Char) (cs : List Char) :
    readPieces (writeChar c ++ cs) =
      (readPieces cs).map fun r => (pieceOf c :: r.1, r.2) := by
  have hshort : ∀ {l d : Char}, l ≠ 'u' → escaped? l = some d → pieceOf d = .plain d →
      readPieces ('\\' :: l :: cs) = (readPieces cs).map fun r => (pieceOf d :: r.1, r.2) := by
    intro l d hl hd hp
    rw [hp, readPieces]
    · rw [hd]
      cases readPieces cs <;> rfl
    · exact fun _ _ _ _ _ hu _ => hl hu
  unfold writeChar
  split
  · rename_i h
    simp only [Bool.or_eq_true, beq_iff_eq] at h
    rcases h with rfl | rfl
    · exact hshort (by decide) rfl rfl
    · exact hshort (by decide) rfl rfl
  iterate 5
    split
    · rename_i h
      rw [beq_iff_eq.mp h]
      exact hshort (by decide) rfl rfl
  rename_i hquote hback hform hline hreturn htab
  simp only [Bool.or_eq_true, beq_iff_eq, not_or] at hquote hback hform hline hreturn htab
  split
  · rename_i hsmall
    have hp : pieceOf c = .unit c.toNat := if_pos ⟨hsmall, hback, hform, hline, hreturn, htab⟩
    rw [hp]
    simp only [List.cons_append, List.nil_append, readPieces, hexNumber?_small c.toNat hsmall]
    cases readPieces cs <;> rfl
  · rename_i hlarge
    have hp : pieceOf c = .plain c := if_neg fun h => hlarge h.1
    rw [hp, List.singleton_append, readPieces]
    · simp only [beq_iff_eq, hquote.2, hlarge, decide_false, Bool.or_false, if_false]
      cases readPieces cs <;> rfl
    · exact hquote.1
    · exact fun _ _ _ _ _ hc _ => hquote.2 hc
    · exact fun _ _ hc _ => hquote.2 hc

theorem readPieces_flatMap (rest : List Char) : ∀ s : List Char,
    readPieces (s.flatMap writeChar ++ '"' :: rest) = some (s.map pieceOf, rest)
  | [] => rfl
  | c :: s => by
    rw [List.flatMap_cons, List.append_assoc, readPieces_writeChar, readPieces_flatMap rest s]
    rfl

/-- A unit that is no half of a surrogate pair stands for itself, whatever follows. -/
theorem joinPieces_unit {n : ℕ} (h : n < 32) (ps : List Piece) :
    joinPieces (.unit n :: ps) = (joinPieces ps).map (Char.ofNat n :: ·) := by
  have hhigh : isHigh n = false := by simp [isHigh]; omega
  have hlow : isLow n = false := by simp [isLow]; omega
  cases ps with
  | nil => simp [joinPieces, hhigh, hlow]
  | cons p ps => cases p <;> simp [joinPieces, hhigh, hlow]

theorem joinPieces_map : ∀ s : List Char, joinPieces (s.map pieceOf) = some s
  | [] => rfl
  | c :: s => by
    rw [List.map_cons, pieceOf]
    split
    · rename_i h
      rw [joinPieces_unit h.1, joinPieces_map s, Option.map_some, Char.ofNat_toNat]
    · rw [joinPieces, joinPieces_map s, Option.map_some]

/-- **A string is read as it was written**, whatever follows. -/
theorem readString_writeString (s : String) (rest : List Char) :
    readString (s.toList.flatMap writeChar ++ '"' :: rest) = some (some s, rest) := by
  simp only [readString, readPieces_flatMap, Option.map_some, joinPieces_map, String.ofList_toList]

theorem writeString_append (s : String) (rest : List Char) :
    writeString s ++ rest = '"' :: (s.toList.flatMap writeChar ++ '"' :: rest) := by
  simp [writeString]

/-! ### Values -/

/-- The start of a number is no mark and no start of another value. -/
theorem ne_of_numberStart {c : Char} (hc : c = '-' ∨ c.isDigit = true) :
    ∀ d ∈ [' ', '\t', '\n', '\r', '[', ']', '\x7b', '"', 'n', 't', 'f'], c ≠ d := by
  rintro d hd rfl
  rcases hc with rfl | hc
  · exact absurd hd (by decide)
  · simp only [List.mem_cons, List.not_mem_nil, or_false] at hd
    rcases hd with rfl | rfl | rfl | rfl | rfl | rfl | rfl | rfl | rfl | rfl | rfl <;> contradiction

/-- A written value starts with a character that is neither a blank nor the end of an array. -/
theorem exists_head_write {height : ℕ} {j : Json} (hj : IsSound height j) :
    ∃ c cs, j.write = c :: cs ∧ isGap c = false ∧ c ≠ ']' := by
  cases hj with
  | null => exact ⟨_, _, rfl, rfl, by decide⟩
  | bool b => cases b <;> exact ⟨_, _, rfl, rfl, by decide⟩
  | number hn =>
    rw [write]
    rcases hn with hnull | ⟨m, hm, -⟩
    · rw [hnull]
      exact ⟨_, _, rfl, rfl, by decide⟩
    · obtain ⟨c, cs, hcons, hc⟩ := Number.head_of_read hm
      have hne := ne_of_numberStart hc
      rw [hcons]
      refine ⟨c, cs, rfl, ?_, hne _ (by decide)⟩
      simp [isGap, hne]
  | text s => exact ⟨_, _, rfl, rfl, by decide⟩
  | @array _ items _ =>
    cases items with
    | nil => exact ⟨_, _, by rw [write], rfl, by decide⟩
    | cons item items => exact ⟨_, _, by rw [write], rfl, by decide⟩
  | @object _ members _ _ =>
    cases members with
    | nil => exact ⟨_, _, by rw [write], rfl, by decide⟩
    | cons m members => exact ⟨_, _, by rw [write], rfl, by decide⟩

theorem skipGaps_cons {c : Char} (h : isGap c = false) (cs : List Char) :
    skipGaps (c :: cs) = c :: cs := by
  rw [skipGaps, List.dropWhile_cons_of_neg (by simp [h])]

/-- What starts like a number is a number or breaks off. -/
theorem readValue_numberStart {c : Char} (cs : List Char) (fuel : ℕ)
    (hc : c = '-' ∨ c.isDigit = true) :
    readValue (fuel + 1) (c :: cs) =
      match Number.read (c :: cs) with
      | some (n, rest) => (.number n, some rest)
      | none => (.broken, none) := by
  have hne := ne_of_numberStart hc
  have hgap : isGap c = false := by simp [isGap, hne]
  have hscalar : readScalar (c :: cs) =
      match Number.read (c :: cs) with
      | some (n, rest) => (.number n, some rest)
      | none => (.broken, none) := by
    cases hnumber : Number.read (c :: cs) <;> simp [readScalar, hne, hnumber]
  rw [← hscalar]
  simp [readValue, skipGaps_cons hgap, hne]

/-- A value is read off the start of a text that it was written to, whatever follows. -/
def ReadsBack (j : Json) : Prop :=
  ∀ (fuel : ℕ) (rest : List Char), 2 * j.write.length ≤ fuel → IsBehind rest →
    readValue fuel (j.write ++ rest) = (j.asRead, some rest)

/-- The values of an array are read one by one. -/
theorem readItems_write (rest : List Char) : ∀ (items : List Json) (item : Json) (fuel : ℕ),
    (∀ i ∈ item :: items, ReadsBack i) →
    2 * (item.write.length + (writeItems items).length) < fuel →
    readItems fuel (item.write ++ (writeItems items ++ rest)) =
      ((item :: items).map asRead, some rest)
  | _, _, 0, _, hfuel => absurd hfuel (Nat.not_lt_zero _)
  | [], item, fuel + 1, hread, hfuel => by
    have hitem := hread item List.mem_cons_self fuel (']' :: rest) (by omega)
      (isBehind_cons (by decide) rest)
    simp [readItems, writeItems, hitem, skipGaps_cons (show isGap ']' = false from rfl)]
  | next :: items, item, fuel + 1, hread, hfuel => by
    rw [writeItems, List.length_cons, List.length_append] at hfuel
    have hitem := hread item List.mem_cons_self fuel
      (',' :: (next.write ++ (writeItems items ++ rest))) (by omega) (isBehind_cons (by decide) _)
    have hrest := readItems_write rest items next fuel
      (fun i hi => hread i (List.mem_cons_of_mem item hi)) (by omega)
    simp only [readItems, writeItems, List.cons_append, List.append_assoc, hitem,
      skipGaps_cons (show isGap ',' = false from rfl), hrest, List.map_cons]

/-- The members of an object are read one by one. -/
theorem readMembers_write (rest : List Char) :
    ∀ (members : List (Option String × Json)) (name : String) (value : Json) (fuel : ℕ),
    (∀ m ∈ members, m.1.isSome = true) → (∀ m ∈ (some name, value) :: members, ReadsBack m.2) →
    2 * (value.write.length + (writeMembers members).length) < fuel →
    readMembers fuel
        (writeString name ++ ':' :: (value.write ++ (writeMembers members ++ rest))) =
      (((some name, value) :: members).map fun m => (m.1, m.2.asRead), some rest)
  | _, _, _, 0, _, _, hfuel => absurd hfuel (Nat.not_lt_zero _)
  | [], name, value, fuel + 1, _, hread, hfuel => by
    have hvalue : readValue fuel (value.write ++ '\x7d' :: rest) =
        (value.asRead, some ('\x7d' :: rest)) :=
      hread (some name, value) List.mem_cons_self fuel _
        (show 2 * value.write.length ≤ fuel by omega) (isBehind_cons (by decide) rest)
    simp [readMembers, writeMembers, writeString_append, readString_writeString, hvalue,
      skipGaps_cons (show isGap '"' = false from rfl),
      skipGaps_cons (show isGap ':' = false from rfl),
      skipGaps_cons (show isGap '\x7d' = false from rfl)]
  | (next, value') :: members, name, value, fuel + 1, hnames, hread, hfuel => by
    obtain ⟨next, rfl⟩ := Option.isSome_iff_exists.mp (hnames _ List.mem_cons_self)
    simp only [writeMembers, List.length_cons, List.length_append, Option.getD_some] at hfuel
    have hvalue : ∀ more, readValue fuel (value.write ++ ',' :: more) =
        (value.asRead, some (',' :: more)) := fun more =>
      hread (some name, value) List.mem_cons_self fuel _
        (show 2 * value.write.length ≤ fuel by omega) (isBehind_cons (by decide) more)
    have hrest := readMembers_write rest members next value' fuel
      (fun m hm => hnames m (List.mem_cons_of_mem _ hm))
      (fun m hm => hread m (List.mem_cons_of_mem _ hm)) (by omega)
    rw [writeString_append] at hrest ⊢
    simp only [readMembers, writeMembers, Option.getD_some, List.cons_append, List.append_assoc,
      writeString_append, skipGaps_cons (show isGap '"' = false from rfl), readString_writeString,
      skipGaps_cons (show isGap ':' = false from rfl), hvalue,
      skipGaps_cons (show isGap ',' = false from rfl), hrest, List.map_cons]

theorem readsBack_array {height : ℕ} {items : List Json}
    (hitems : ∀ item ∈ items, IsSound height item) (hread : ∀ item ∈ items, ReadsBack item) :
    ReadsBack (.array items) := by
  rintro (_ | fuel) rest hfuel -
  · cases items <;> exact absurd hfuel (by simp [write])
  rw [asRead_array]
  cases items with
  | nil => rfl
  | cons item items =>
    rw [write, List.length_cons, List.length_append] at hfuel
    obtain ⟨c, cs, hcons, hgap, hend⟩ := exists_head_write (hitems item List.mem_cons_self)
    have hvalues := readItems_write rest items item fuel hread (by omega)
    rw [hcons, List.cons_append] at hvalues
    simp [write, hcons, readValue, skipGaps_cons (show isGap '[' = false from rfl),
      skipGaps_cons hgap, hend, hvalues]

theorem readsBack_object {members : List (Option String × Json)}
    (hnames : ∀ m ∈ members, m.1.isSome = true) (hread : ∀ m ∈ members, ReadsBack m.2) :
    ReadsBack (.object members) := by
  rintro (_ | fuel) rest hfuel -
  · cases members <;> exact absurd hfuel (by simp [write])
  rw [asRead_object]
  cases members with
  | nil => rfl
  | cons m members =>
    obtain ⟨name, value⟩ := m
    obtain ⟨name, rfl⟩ := Option.isSome_iff_exists.mp (hnames _ List.mem_cons_self)
    simp only [write, List.length_cons, List.length_append] at hfuel
    have hmembers := readMembers_write rest members name value fuel
      (fun m hm => hnames m (List.mem_cons_of_mem _ hm)) hread (by omega)
    rw [writeString_append] at hmembers
    simp [write, writeString_append, readValue,
      skipGaps_cons (show isGap '\x7b' = false from rfl),
      skipGaps_cons (show isGap '"' = false from rfl), hmembers]

/-- **What was written is read again**, up to its end and whatever follows: the induction is
on the value, and the containers hand their fuel on to what they hold. -/
theorem readValue_write {height : ℕ} {j : Json} (hj : IsSound height j) : ReadsBack j := by
  induction hj with
  | null =>
    rintro (_ | fuel) rest hfuel -
    · exact absurd hfuel (by decide)
    · rfl
  | bool b =>
    rintro (_ | fuel) rest hfuel -
    · cases b <;> exact absurd hfuel (by decide)
    · cases b <;> rfl
  | @number _ n hn =>
    rintro fuel rest hfuel hrest
    rw [write] at hfuel ⊢
    rcases hn with hnull | ⟨m, hm, -⟩
    · have hread : n.asRead = .null := by rw [Number.asRead, hnull]; rfl
      rw [asRead, hread]
      rw [hnull] at hfuel ⊢
      rcases fuel with _ | fuel
      · exact absurd hfuel (by decide)
      · rfl
    · obtain ⟨c, cs, hcons, hc⟩ := Number.head_of_read hm
      have hread : n.asRead = .number m := by rw [Number.asRead, hm]
      have happend := Number.read_append hrest hm
      rw [asRead, hread]
      rw [hcons] at hfuel happend ⊢
      rcases fuel with _ | fuel
      · exact absurd hfuel (by rw [List.length_cons]; omega)
      · rw [List.cons_append] at happend ⊢
        rw [readValue_numberStart _ fuel hc, happend]
        rfl
  | text s =>
    rintro (_ | fuel) rest hfuel -
    · exact absurd hfuel (by simp [write, writeString])
    · rw [write, Option.getD_some, writeString_append]
      simp [readValue, skipGaps_cons (show isGap '"' = false from rfl), readScalar,
        readString_writeString, asRead]
  | array hitems ih => exact readsBack_array hitems ih
  | object hnames _ ih => exact readsBack_object hnames ih

theorem read_toText {height : ℕ} {j : Json} (hj : IsSound height j) :
    read j.toText.toList = (j.asRead, some []) := by
  have hread := readValue_write hj (2 * j.write.length + 2) [] (by omega) isBehind_nil
  rwa [List.append_nil, ← read, ← String.toList_ofList (l := j.write)] at hread

/-- A text that was written is decoded from the value that it is read as. -/
theorem decodeText_toText {α : Type} {height : ℕ} {j : Json} (hj : IsSound height j)
    (d : Decoder α) : decodeText d j.toText = d {} j.asRead := by
  rw [decodeText, read_toText hj]
  cases hd : d {} j.asRead <;> simp [hd, bind, Except.bind]

theorem allText_iff : ∀ {items : List Json},
    allText items = true ↔ ∀ item ∈ items, item.isText = true
  | [] => by simp [allText]
  | item :: items => by rw [allText, Bool.and_eq_true, allText_iff, List.forall_mem_cons]

theorem membersText_iff : ∀ {members : List (Option String × Json)},
    membersText members = true ↔ ∀ m ∈ members, m.1.isSome = true ∧ m.2.isText = true
  | [] => by simp [membersText]
  | (name, value) :: members => by
    rw [membersText, Bool.and_eq_true, Bool.and_eq_true, membersText_iff, List.forall_mem_cons]

/-- **What is sound can be written.** -/
theorem isText_of_isSound {height : ℕ} {j : Json} (hj : IsSound height j) : j.isText = true := by
  induction hj with
  | array hitems ih => exact allText_iff.mpr ih
  | object hnames hvalues ih => exact membersText_iff.mpr fun m hm => ⟨hnames m hm, ih m hm⟩
  | _ => rfl

/-- A list of strings can be written. -/
theorem isText_strings (l : List String) : (ofList ofString l).isText = true := by
  rw [ofList, Json.isText, allText_iff, List.forall_mem_map]
  exact fun _ _ => rfl

theorem allPlain_iff {depth : ℕ} : ∀ {items : List Json},
    allPlain depth items = true ↔ ∀ item ∈ items, item.isPlain depth = true
  | [] => by simp [allPlain]
  | item :: items => by rw [allPlain, Bool.and_eq_true, allPlain_iff, List.forall_mem_cons]

theorem membersPlain_iff {depth : ℕ} : ∀ {members : List (Option String × Json)},
    membersPlain depth members = true ↔
      ∀ m ∈ members, m.1.isSome = true ∧ m.2.isPlain depth = true
  | [] => by simp [membersPlain]
  | (name, value) :: members => by
    rw [membersPlain, Bool.and_eq_true, Bool.and_eq_true, membersPlain_iff, List.forall_mem_cons]

/-- **What is read can be kept whole** where there is room for its containers. -/
theorem isPlain_asRead {height : ℕ} {j : Json} (hj : IsSound height j) :
    ∀ depth, depth + height ≤ maxDepth → j.asRead.isPlain depth = true := by
  induction hj with
  | null => exact fun _ _ => rfl
  | bool b => exact fun _ _ => rfl
  | @number _ n hn =>
    intro depth _
    rw [asRead, Number.asRead]
    rcases hn with hnull | ⟨m, hm, hfloat⟩
    · rw [hnull]; rfl
    · rw [hm]
      cases m <;> first | rfl | exact absurd rfl hfloat
  | text s => exact fun _ _ => rfl
  | array hitems ih =>
    intro depth hdepth
    rw [asRead_array, isPlain, Bool.and_eq_true, decide_eq_true_eq, allPlain_iff]
    refine ⟨by omega, fun item hitem => ?_⟩
    obtain ⟨i, hi, rfl⟩ := List.mem_map.mp hitem
    exact ih i hi (depth + 1) (by omega)
  | object hnames hvalues ih =>
    intro depth hdepth
    rw [asRead_object, isPlain, Bool.and_eq_true, decide_eq_true_eq, membersPlain_iff]
    refine ⟨by omega, fun member hmember => ?_⟩
    obtain ⟨m, hm, rfl⟩ := List.mem_map.mp hmember
    exact ⟨hnames m hm, ih m hm (depth + 1) (by omega)⟩

end Json

end QuotaWatch
