/-
# Moments with a gap between them

Where each of a row of moments lies at least a gap behind the one before it, a
stretch of time has room for only so many of them: as many as there are gaps in
it, and one.

Key definitions: `Timestamp.Precedes`, `Apart`.
Key theorems: `apart_of_isChain`, `length_le_of_apart`.
-/
import Mathlib.Data.List.Chain
import QuotaWatch.Time.Timestamp

namespace QuotaWatch.Time

/-- A moment is no later than another, and neither of them is a leap second. -/
structure Timestamp.Precedes (t t' : Timestamp) : Prop where
  earlier : t.leap = false
  later : t'.leap = false
  le : t.nanos ≤ t'.nanos

namespace Timestamp.Precedes

variable {t t' t'' : Timestamp}

theorem refl (h : t.leap = false) : t.Precedes t := ⟨h, h, Int.le_refl _⟩

theorem trans (h : t.Precedes t') (h' : t'.Precedes t'') : t.Precedes t'' :=
  ⟨h.earlier, h'.later, Int.le_trans h.le h'.le⟩

end Timestamp.Precedes

variable {α : Type} {time : α → Int} {gap : Span} {l : List α}

/-- Any two moments are at least a gap apart. -/
abbrev Apart (time : α → Int) (gap : Span) (l : List α) : Prop :=
  l.Pairwise fun a b => time a + gap.nanos ≤ time b

/-- Moments are apart where each is apart from the next one. -/
theorem apart_of_isChain (h : l.IsChain fun a b => time a + gap.nanos ≤ time b) :
    Apart time gap l := by
  have : Trans (fun a b : α => time a + gap.nanos ≤ time b)
      (fun a b : α => time a + gap.nanos ≤ time b)
      (fun a b : α => time a + gap.nanos ≤ time b) :=
    ⟨fun hab hbc => by omega⟩
  exact List.isChain_iff_pairwise.mp h

/-- Between two times there is room for the gaps between the moments. -/
theorem length_mul_le_of_apart {first last : Int} (h : Apart time gap l)
    (hwithin : ∀ a ∈ l, first ≤ time a ∧ time a ≤ last) (hroom : first ≤ last + gap.nanos) :
    (l.length * gap.nanos : Int) ≤ last - first + gap.nanos := by
  induction l generalizing first with
  | nil => simp only [List.length_nil]; omega
  | cons a l ih =>
    obtain ⟨hnext, hrest⟩ := List.pairwise_cons.mp h
    obtain ⟨hfirst, hlast⟩ := hwithin a List.mem_cons_self
    have hlater := @ih (time a + gap.nanos) hrest
      (fun b hb => ⟨hnext b hb, (hwithin b (List.mem_cons_of_mem _ hb)).2⟩) (by omega)
    rw [List.length_cons, Int.natCast_succ, Int.add_mul, Int.one_mul]
    omega

/-- In a stretch of time there are no more moments than gaps, and one. -/
theorem length_le_of_apart {stretch : Span} {last : Int} (hpos : 0 < gap.nanos)
    (h : Apart time gap l) (hwithin : ∀ a ∈ l, last - stretch.nanos ≤ time a ∧ time a ≤ last) :
    l.length ≤ stretch.nanos / gap.nanos + 1 := by
  have hmul := length_mul_le_of_apart h hwithin (by omega)
  have hnat : l.length * gap.nanos ≤ stretch.nanos + gap.nanos := by
    rw [← Int.ofNat_le, Int.natCast_mul, Int.natCast_add]
    omega
  rw [← Nat.add_div_right _ hpos]
  exact (Nat.le_div_iff_mul_le hpos).mpr hnat

end QuotaWatch.Time
