/-
# The average of a window

The average of readings is the rounded mean of every figure. A rounded mean is
the exact quotient: it lies between the least and the greatest amount, so it is
a figure again, and 128 bits hold every sum on the way (`isMean_roundedDiv`).

The totals of the partitions are counted up entry by entry. Behind every entry
they are the totals of the names seen so far, each of the amounts under its name
(`foldl_countIn`), so a partition is averaged over the entries that carry its
name.

With what a window retains (`readings_pushAll`) this tells the average behind a
run of pushes from the pushes alone.

Key definitions: `IsMean`, `Window.amountsOf`, `Window.totalOf`, `Window.IsAverage`.
Key theorems: `isMean_roundedDiv`, `Window.foldl_countIn`, `Window.average_of_pushes`.
-/
import Mathlib.Algebra.GroupWithZero.Nat
import Mathlib.Algebra.Order.BigOperators.Group.List
import Mathlib.Algebra.Order.Group.Nat
import QuotaWatch.Proofs.Time.Apart
import QuotaWatch.Proofs.Window.Retention

namespace QuotaWatch

open Time

/-! ### Rounded means -/

/-- `mean` is the mean of amounts as a whole number, a half going up. -/
structure IsMean (amounts : List UInt64) (mean : UInt64) : Prop where
  value : mean.toNat =
    ((amounts.map UInt64.toNat).sum + amounts.length / 2) / amounts.length
  least : ∃ a ∈ amounts, a ≤ mean
  greatest : ∃ a ∈ amounts, mean ≤ a
  /-- 128 bits hold the sum that is divided, and so every sum on the way to it. -/
  fits : amounts.length ≤ 2 ^ 64 →
    (amounts.map UInt64.toNat).sum + amounts.length / 2 < 2 ^ 128

section Quotient

variable {amounts : List ℕ} {bound : ℕ}

theorem quotient_le (hne : amounts ≠ []) (h : ∀ a ∈ amounts, a ≤ bound) :
    (amounts.sum + amounts.length / 2) / amounts.length ≤ bound := by
  have hpos : 0 < amounts.length := List.length_pos_of_ne_nil hne
  have hsum : amounts.sum ≤ amounts.length * bound := List.sum_le_card_nsmul amounts bound h
  rw [← Nat.lt_succ_iff, Nat.div_lt_iff_lt_mul hpos]
  calc amounts.sum + amounts.length / 2
      ≤ amounts.length * bound + amounts.length / 2 := Nat.add_le_add_right hsum _
    _ < amounts.length * bound + amounts.length := by omega
    _ = (bound + 1) * amounts.length := by rw [Nat.succ_mul, Nat.mul_comm]

theorem le_quotient (hne : amounts ≠ []) (h : ∀ a ∈ amounts, bound ≤ a) :
    bound ≤ (amounts.sum + amounts.length / 2) / amounts.length := by
  have hpos : 0 < amounts.length := List.length_pos_of_ne_nil hne
  have hsum : amounts.length * bound ≤ amounts.sum := List.card_nsmul_le_sum amounts bound h
  rw [Nat.le_div_iff_mul_le hpos, Nat.mul_comm]
  exact Nat.le_add_right_of_le hsum

theorem exists_le_quotient (hne : amounts ≠ []) :
    ∃ a ∈ amounts, a ≤ (amounts.sum + amounts.length / 2) / amounts.length := by
  by_contra! habove
  exact absurd (le_quotient hne habove) (Nat.not_succ_le_self _)

theorem exists_quotient_le (hne : amounts ≠ []) :
    ∃ a ∈ amounts, (amounts.sum + amounts.length / 2) / amounts.length ≤ a := by
  by_contra! hbelow
  have hle := quotient_le hne fun a ha => Nat.le_sub_one_of_lt (hbelow a ha)
  obtain ⟨a, ha⟩ := List.exists_mem_of_ne_nil amounts hne
  have hlt := hbelow a ha
  omega

end Quotient

/-- **A rounded quotient is the mean**: nothing is cut off where it is made a figure. -/
theorem isMean_roundedDiv {amounts : List UInt64} (hne : amounts ≠ []) :
    IsMean amounts (roundedDiv (amounts.map UInt64.toNat).sum amounts.length) := by
  have hnats : amounts.map UInt64.toNat ≠ [] := by simpa using hne
  have hlength : (amounts.map UInt64.toNat).length = amounts.length := List.length_map _
  obtain ⟨greatest, hgreatest, hle⟩ := exists_quotient_le hnats
  obtain ⟨least, hleast, hge⟩ := exists_le_quotient hnats
  obtain ⟨a, ha, rfl⟩ := List.mem_map.mp hgreatest
  obtain ⟨b, hb, rfl⟩ := List.mem_map.mp hleast
  rw [hlength] at hle hge
  have hvalue : (roundedDiv (amounts.map UInt64.toNat).sum amounts.length).toNat =
      ((amounts.map UInt64.toNat).sum + amounts.length / 2) / amounts.length := by
    rw [roundedDiv, UInt64.toNat_ofNat', Nat.mod_eq_of_lt (Nat.lt_of_le_of_lt hle a.toNat_lt)]
  refine ⟨hvalue, ⟨b, hb, ?_⟩, ⟨a, ha, ?_⟩, fun hfits => ?_⟩
  · rwa [UInt64.le_iff_toNat_le, hvalue]
  · rwa [UInt64.le_iff_toNat_le, hvalue]
  · have hsum : (amounts.map UInt64.toNat).sum ≤ amounts.length * (2 ^ 64 - 1) := by
      rw [← hlength]
      refine List.sum_le_card_nsmul _ _ fun n hn => ?_
      obtain ⟨c, -, rfl⟩ := List.mem_map.mp hn
      exact Nat.le_pred_of_lt c.toNat_lt
    omega

namespace Window

/-! ### Totals of partitions -/

/-- The amounts of the entries that carry a name. -/
def amountsOf (entries : List PartitionUsage) (name : String) : List UInt64 :=
  (entries.filter (·.name = name)).map (·.used)

/-- The total of a name over entries. -/
def totalOf (entries : List PartitionUsage) (name : String) : Total :=
  ⟨name, ((amountsOf entries name).map UInt64.toNat).sum, (amountsOf entries name).length⟩

@[simp] theorem name_totalOf (entries : List PartitionUsage) (name : String) :
    (totalOf entries name).name = name := rfl

theorem eraseDups_concat (names : List String) (name : String) :
    (names ++ [name]).eraseDups =
      if name ∈ names then names.eraseDups else names.eraseDups ++ [name] := by
  rw [List.eraseDups_append, List.removeAll]
  by_cases h : name ∈ names
  · rw [if_pos h, List.filter_cons_of_neg (by simpa using h), List.filter_nil, List.eraseDups_nil,
      List.append_nil]
  · rw [if_neg h, List.filter_cons_of_pos (by simpa using h), List.filter_nil,
      List.eraseDups_cons, List.filter_nil, List.eraseDups_nil]

theorem nodup_eraseDups (names : List String) : names.eraseDups.Nodup := by
  induction names using List.reverseRecOn with
  | nil => exact List.nodup_nil
  | append_singleton names name ih =>
    rw [eraseDups_concat]
    split
    · exact ih
    · rename_i hnew
      rw [← List.mem_eraseDups] at hnew
      rw [List.nodup_append]
      refine ⟨ih, List.pairwise_singleton _ _, ?_⟩
      rintro other hother _ hname rfl
      rw [List.mem_singleton.mp hname] at hother
      exact hnew hother

section Entry

variable {entries : List PartitionUsage} {p : PartitionUsage} {name : String}

/-- An entry counts towards its own name. -/
theorem totalOf_concat_self : totalOf (entries ++ [p]) p.name =
    ⟨p.name, (totalOf entries p.name).sum + p.used.toNat, (totalOf entries p.name).count + 1⟩ := by
  simp [totalOf, amountsOf]

/-- An entry does not count towards another name. -/
theorem totalOf_concat_of_ne (h : p.name ≠ name) :
    totalOf (entries ++ [p]) name = totalOf entries name := by
  simp [totalOf, amountsOf, h]

theorem totalOf_of_not_mem (h : name ∉ entries.map (·.name)) :
    totalOf entries name = ⟨name, 0, 0⟩ := by
  have hnone : entries.filter (·.name = name) = [] := by
    refine List.filter_eq_nil_iff.mpr fun q hq hname => h (List.mem_map.mpr ⟨q, hq, ?_⟩)
    exact of_decide_eq_true hname
  rw [totalOf, amountsOf, hnone]
  rfl

/-- An entry of a name that is there counts towards its total. -/
theorem countIn_of_mem : ∀ {names : List String}, names.Nodup → p.name ∈ names →
    countIn (names.map (totalOf entries)) p = names.map (totalOf (entries ++ [p]))
  | name :: names, hnodup, hmem => by
    obtain ⟨hfirst, hrest⟩ := List.nodup_cons.mp hnodup
    rw [List.map_cons, countIn, name_totalOf]
    by_cases hname : name = p.name
    · subst hname
      have hothers : names.map (totalOf (entries ++ [p])) = names.map (totalOf entries) :=
        List.map_congr_left fun other hother =>
          totalOf_concat_of_ne fun he => hfirst (he ▸ hother)
      rw [if_pos rfl, List.map_cons, totalOf_concat_self, hothers]
    · have hlater : p.name ∈ names :=
        (List.mem_cons.mp hmem).resolve_left fun he => hname he.symm
      rw [if_neg hname, countIn_of_mem hrest hlater, List.map_cons,
        totalOf_concat_of_ne fun he => hname he.symm]

/-- An entry of a new name gets a total of its own. -/
theorem countIn_of_not_mem : ∀ {names : List String}, p.name ∉ names →
    countIn (names.map (totalOf entries)) p =
      names.map (totalOf (entries ++ [p])) ++ [⟨p.name, p.used.toNat, 1⟩]
  | [], _ => rfl
  | name :: names, hnew => by
    obtain ⟨hname, hlater⟩ := not_or.mp (mt List.mem_cons.mpr hnew)
    rw [List.map_cons, countIn, name_totalOf, if_neg fun he => hname he.symm,
      countIn_of_not_mem hlater, List.map_cons, totalOf_concat_of_ne hname, List.cons_append]

end Entry

/-- **Counting entries up gives one total for every name**, in the order in which the
names first appear, over the entries that carry it. -/
theorem foldl_countIn (entries : List PartitionUsage) :
    entries.foldl countIn [] = (entries.map (·.name)).eraseDups.map (totalOf entries) := by
  induction entries using List.reverseRecOn with
  | nil => rfl
  | append_singleton entries p ih =>
    rw [List.foldl_append, List.foldl_cons, List.foldl_nil, ih, List.map_append, List.map_cons,
      List.map_nil, eraseDups_concat]
    split
    · rename_i hknown
      exact countIn_of_mem (nodup_eraseDups _) (List.mem_eraseDups.mpr hknown)
    · rename_i hnew
      rw [countIn_of_not_mem (mt List.mem_eraseDups.mp hnew), List.map_append, List.map_cons,
        List.map_nil, totalOf_concat_self, totalOf_of_not_mem hnew, Nat.zero_add]

/-! ### Averages -/

/-- What an average of readings has to be. -/
structure IsAverage (readings : List Reading) (average : Reading) : Prop where
  cpu : IsMean (readings.map (·.cpu)) average.cpu
  ram : IsMean (readings.map (·.ram)) average.ram
  inTraffic : IsMean (readings.map (·.inTraffic)) average.inTraffic
  outTraffic : IsMean (readings.map (·.outTraffic)) average.outTraffic
  /-- There is one entry for every name, in the order in which the names first appear. -/
  names : average.partitions.map (·.name) =
    ((readings.flatMap (·.partitions)).map (·.name)).eraseDups
  distinct : (average.partitions.map (·.name)).Nodup
  /-- A partition is averaged over the entries that carry its name. -/
  partitions : ∀ p ∈ average.partitions,
    IsMean (((readings.flatMap (·.partitions)).filter (·.name = p.name)).map (·.used)) p.used

theorem isAverage_averageOf {readings : List Reading} (hne : readings ≠ []) (latest : Reading) :
    IsAverage readings (averageOf readings latest) := by
  have hmean : ∀ figure : Reading → Figure,
      IsMean (readings.map figure) (roundedMean (readings.map figure)) :=
    fun figure => isMean_roundedDiv (by simpa using hne)
  have hpartitions : (averageOf readings latest).partitions =
      (((readings.flatMap (·.partitions)).map (·.name)).eraseDups.map
        (totalOf (readings.flatMap (·.partitions)))).map
          fun t => ⟨t.name, roundedDiv t.sum t.count⟩ := by
    rw [← foldl_countIn]
    rfl
  have hnames : (averageOf readings latest).partitions.map (·.name) =
      ((readings.flatMap (·.partitions)).map (·.name)).eraseDups := by
    simp [hpartitions, Function.comp_def]
  refine ⟨hmean _, hmean _, hmean _, hmean _, hnames, hnames ▸ nodup_eraseDups _, ?_⟩
  intro p hp
  rw [hpartitions, List.map_map] at hp
  obtain ⟨name, hname, rfl⟩ := List.mem_map.mp hp
  obtain ⟨entry, hentry, rfl⟩ := List.mem_map.mp (List.mem_eraseDups.mp hname)
  refine isMean_roundedDiv fun hnone => ?_
  have hsome : entry ∈ (readings.flatMap (·.partitions)).filter (·.name = entry.name) :=
    List.mem_filter.mpr ⟨hentry, decide_eq_true rfl⟩
  exact List.not_mem_nil (List.map_eq_nil_iff.mp hnone ▸ hsome)

/-- The average is taken over what is retained, with the time of the last reading. -/
theorem average_of_readings {w : Window} {readings : List Reading} {latest : Reading}
    (h : w.readings = readings ++ [latest]) (entity : String) :
    ∃ mean, w.average entity = .ok mean ∧ mean.timestamp = latest.timestamp ∧
      IsAverage w.readings mean := by
  refine ⟨averageOf w.readings latest, ?_, rfl, isAverage_averageOf ?_ latest⟩
  · rw [average, h, List.getLast?_concat]
  · rw [h]
    exact List.append_ne_nil_of_right_ne_nil _ (List.cons_ne_nil _ _)

/-- The reading just pushed is fresh. -/
theorem not_isStale_self (retention : Span) (r : Reading) :
    isStale retention r.timestamp r = false := by
  rw [isStale, decide_eq_false_iff_not, Timestamp.not_lt]
  exact Timestamp.back_le _ _

/-- **The average behind a run of pushes.** If the clock never goes back and shows no
leap second, a window holds the readings that are no older than its retention, in the
order of the pushes; the average is taken over exactly these; and of readings that come
at least a gap apart no more are held than there are gaps in the retention, and one. -/
theorem average_of_pushes (retention : Span) (pushed : List Reading) (latest : Reading)
    (entity : String) (hcovered : ∀ r ∈ pushed ++ [latest], r.timestamp.Covered)
    (hplain : ∀ r ∈ pushed ++ [latest], r.timestamp.leap = false)
    (hordered : (pushed ++ [latest]).IsChain fun r r' : Reading =>
      r.timestamp.nanos ≤ r'.timestamp.nanos) :
    let w := ({ retention } : Window).pushAll (pushed ++ [latest])
    w.readings = (pushed ++ [latest]).filter
        (fun r => latest.timestamp.nanos - retention.nanos ≤ r.timestamp.nanos) ∧
      (∃ mean, w.average entity = .ok mean ∧ mean.timestamp = latest.timestamp ∧
        IsAverage w.readings mean) ∧
      ∀ gap : Span, 0 < gap.nanos →
        ((pushed ++ [latest]).IsChain fun r r' : Reading =>
          r.timestamp.nanos + gap.nanos ≤ r'.timestamp.nanos) →
        w.readings.length ≤ retention.nanos / gap.nanos + 1 := by
  intro w
  have hall : Ordered (pushed ++ [latest]) := ordered_of_isChain hordered
  have hkept : w.readings = (pushed ++ [latest]).filter (!isStale retention latest.timestamp ·) :=
    readings_pushAll hcovered hplain hall
  have hlatest : latest.timestamp.leap = false := hplain latest (by simp)
  have hfresh : w.readings = (pushed ++ [latest]).filter
      (fun r => latest.timestamp.nanos - retention.nanos ≤ r.timestamp.nanos) := by
    rw [hkept]
    refine List.filter_congr fun r hr => ?_
    rw [Bool.eq_iff_iff, Bool.not_eq_true', ← Bool.not_eq_true, isStale_iff hlatest (hplain r hr),
      decide_eq_true_eq]
    exact Int.not_lt
  refine ⟨hfresh, ?_, fun gap hpos hapart => ?_⟩
  · have hlast : w.readings =
        pushed.filter (!isStale retention latest.timestamp ·) ++ [latest] := by
      rw [hkept, List.filter_append, List.filter_cons_of_pos (by rw [not_isStale_self]; rfl),
        List.filter_nil]
    exact average_of_readings hlast entity
  · have hsub : w.readings.Sublist (pushed ++ [latest]) := hkept ▸ List.filter_sublist
    have hwithin : ∀ r ∈ w.readings,
        latest.timestamp.nanos - retention.nanos ≤ r.timestamp.nanos ∧
          r.timestamp.nanos ≤ latest.timestamp.nanos := by
      intro r hr
      refine ⟨?_, hall.le_last r (hsub.subset hr)⟩
      rw [hfresh] at hr
      exact of_decide_eq_true (List.mem_filter.mp hr).2
    exact length_le_of_apart hpos ((apart_of_isChain hapart).sublist hsub) hwithin

/-- Once a second a reading of a CPU figure and of partitions that come and go. -/
def comingAndGoing : List Reading :=
  [{ cpuAt 0 50 with partitions := [⟨"state", 999⟩] },
    { cpuAt 1 100 with partitions := [⟨"storage", 1000⟩] },
    { cpuAt 2 100 with partitions := [⟨"storage", 2000⟩, ⟨"state", 10⟩] }]

theorem average_of_pushes_comingAndGoing :
    let latest : Reading := { cpuAt 3 101 with partitions := [⟨"state", 31⟩] }
    let w := ({ retention := .ofMillis 2000 } : Window).pushAll (comingAndGoing ++ [latest])
    (∀ r ∈ comingAndGoing ++ [latest], r.timestamp.Covered) ∧
      (∀ r ∈ comingAndGoing ++ [latest], r.timestamp.leap = false) ∧
      (comingAndGoing ++ [latest]).IsChain
        (fun r r' : Reading => r.timestamp.nanos + 1000000000 ≤ r'.timestamp.nanos) ∧
      (w.average "node").toOption = some
        { cpu := 100, partitions := [⟨"storage", 1500⟩, ⟨"state", 21⟩],
          timestamp := .ofMicros 3000000 } ∧
      w.readings.length = 3 ∧ w.readings.length ≤ 2000000000 / 1000000000 + 1 := by
  intro latest w
  have hcovered : ∀ r ∈ comingAndGoing ++ [latest], r.timestamp.Covered := by decide +kernel
  have hplain : ∀ r ∈ comingAndGoing ++ [latest], r.timestamp.leap = false := by decide +kernel
  have hapart : (comingAndGoing ++ [latest]).IsChain fun r r' : Reading =>
      r.timestamp.nanos + 1000000000 ≤ r'.timestamp.nanos := by decide +kernel
  have hordered : (comingAndGoing ++ [latest]).IsChain fun r r' : Reading =>
      r.timestamp.nanos ≤ r'.timestamp.nanos := by decide +kernel
  have h := average_of_pushes (.ofMillis 2000) comingAndGoing latest "node" hcovered hplain
    hordered
  exact ⟨hcovered, hplain, hapart, by decide +kernel, by decide +kernel,
    h.2.2 ⟨1000000000⟩ (by decide) hapart⟩

end Window

end QuotaWatch
