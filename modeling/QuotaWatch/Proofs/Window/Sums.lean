/-
# Averages in words of 128 bits

A machine adds the amounts of a window up in 128 bits, divides there, and keeps 64 bits of
the quotient. Here every step of that arithmetic has its bound, and a step that would pass
it gives nothing. No step does: a sum of so many amounts lies that many below so many times
`2 ^ 64` (`IsTally`), and a memory with addresses of 64 bits holds no more of them than its
addresses (`Window.average?_eq`).

Key definitions: `plus?`, `roundedDiv?`, `Window.average?`, `Window.held`, `IsTally`.
Key theorems: `IsTally.plus?_eq`, `IsTally.roundedDiv?_eq`, `Window.totals?_eq`,
`Window.average?_eq`.
-/
import Mathlib.Algebra.Group.Nat.Defs
import QuotaWatch.Window

namespace QuotaWatch

/-! ### Arithmetic with bounds -/

/-- A sum, where 128 bits hold it. -/
def plus? (a b : ℕ) : Option ℕ := if a + b < 2 ^ 128 then some (a + b) else none

/-- The sum of amounts, where 128 bits hold it and every sum on the way to it. -/
def sum? (amounts : List UInt64) : Option ℕ := amounts.foldlM (fun sum a => plus? sum a.toNat) 0

/-- A sum of amounts over their number, a half going up, where 64 bits hold the quotient. -/
def roundedDiv? (sum count : ℕ) : Option UInt64 :=
  if count = 0 then some 0
  else do
    let raised ← plus? sum (count / 2)
    if raised / count < 2 ^ 64 then some (UInt64.ofNat (raised / count)) else none

/-- The mean of amounts. -/
def roundedMean? (amounts : List UInt64) : Option UInt64 := do
  let sum ← sum? amounts
  roundedDiv? sum amounts.length

namespace Window

/-- Take in an entry. -/
def countIn? (totals : List Total) (p : PartitionUsage) : Option (List Total) :=
  match totals with
  | [] => some [⟨p.name, p.used.toNat, 1⟩]
  | total :: rest =>
    if total.name = p.name then do
      let sum ← plus? total.sum p.used.toNat
      let count ← plus? total.count 1
      some (⟨total.name, sum, count⟩ :: rest)
    else (countIn? rest p).map (total :: ·)

/-- The totals of the partitions over all readings. -/
def totals? (readings : List Reading) : Option (List Total) :=
  (readings.flatMap (·.partitions)).foldlM countIn? []

/-- The mean of every figure, with the time of the latest reading. -/
def averageOf? (readings : List Reading) (latest : Reading) : Option Reading := do
  let totals ← totals? readings
  let cpu ← roundedMean? (readings.map (·.cpu))
  let ram ← roundedMean? (readings.map (·.ram))
  let partitions ← totals.mapM fun t => (roundedDiv? t.sum t.count).map (PartitionUsage.mk t.name)
  let inTraffic ← roundedMean? (readings.map (·.inTraffic))
  let outTraffic ← roundedMean? (readings.map (·.outTraffic))
  some { cpu, ram, partitions, inTraffic, outTraffic, timestamp := latest.timestamp }

/-- The average of an entity, where no step on the way to it passes its bound. -/
def average? (w : Window) (entity : String) : Option (Except Fault Reading) :=
  match w.readings.getLast? with
  | none => some (.error (.noData entity))
  | some latest => (averageOf? w.readings latest).map .ok

/-- How many readings and entries of partitions a window holds. -/
def held (w : Window) : ℕ := w.readings.length + (w.readings.flatMap (·.partitions)).length

end Window

/-! ### Sums of words -/

/-- What a sum of amounts is bounded by, where addresses of 64 bits tell the amounts apart. -/
structure IsTally (sum count : ℕ) : Prop where
  /-- Every amount is less than `2 ^ 64`. -/
  below : sum + count ≤ count * 2 ^ 64
  addressed : count ≤ 2 ^ 64

theorem isTally_zero : IsTally 0 0 := ⟨by decide, by decide⟩

theorem isTally_one (a : UInt64) : IsTally a.toNat 1 := by
  have := a.toNat_lt
  exact ⟨by omega, by decide⟩

namespace IsTally

variable {sum count : ℕ}

/-- One more amount. -/
theorem plus (h : IsTally sum count) (hcount : count < 2 ^ 64) (a : UInt64) :
    IsTally (sum + a.toNat) (count + 1) := by
  obtain ⟨hbelow, -⟩ := h
  have := a.toNat_lt
  exact ⟨by omega, by omega⟩

/-- 128 bits hold the sum with one more amount. -/
theorem plus?_eq (h : IsTally sum count) (hcount : count < 2 ^ 64) (a : UInt64) :
    plus? sum a.toNat = some (sum + a.toNat) := by
  obtain ⟨hbelow, -⟩ := h
  have := a.toNat_lt
  exact if_pos (by omega)

theorem plus?_one (h : IsTally sum count) : plus? count 1 = some (count + 1) := by
  obtain ⟨-, haddressed⟩ := h
  exact if_pos (by omega)

/-- **The quotient of a tally is a word**, and 128 bits hold what is divided. -/
theorem roundedDiv?_eq (h : IsTally sum count) :
    roundedDiv? sum count = some (roundedDiv sum count) := by
  obtain ⟨hbelow, haddressed⟩ := h
  unfold roundedDiv?
  split
  · rename_i hzero
    rw [roundedDiv, hzero, Nat.div_zero]
    rfl
  · rename_i hcount
    have hraised : plus? sum (count / 2) = some (sum + count / 2) := if_pos (by omega)
    have hword : (sum + count / 2) / count < 2 ^ 64 := by
      rw [Nat.div_lt_iff_lt_mul (Nat.pos_of_ne_zero hcount)]
      omega
    rw [hraised, Option.bind_eq_bind, Option.bind_some, if_pos hword, roundedDiv]

end IsTally

/-- Adding up keeps a tally. -/
theorem foldlM_plus? : ∀ {amounts : List UInt64} {sum count : ℕ}, IsTally sum count →
    count + amounts.length ≤ 2 ^ 64 →
    amounts.foldlM (fun sum a => plus? sum a.toNat) sum =
        some (sum + (amounts.map UInt64.toNat).foldr (· + ·) 0) ∧
      IsTally (sum + (amounts.map UInt64.toNat).foldr (· + ·) 0) (count + amounts.length)
  | [], _, _, h, _ => ⟨rfl, h⟩
  | a :: amounts, sum, count, h, hfits => by
    rw [List.length_cons] at hfits
    have hcount : count < 2 ^ 64 := by omega
    obtain ⟨hsum, htally⟩ :=
      foldlM_plus? (h.plus hcount a) (by omega : count + 1 + amounts.length ≤ _)
    rw [List.foldlM_cons, h.plus?_eq hcount, Option.bind_eq_bind, Option.bind_some, hsum,
      List.map_cons, List.foldr_cons, ← Nat.add_assoc, List.length_cons, Nat.add_comm _ 1,
      ← Nat.add_assoc]
    exact ⟨rfl, htally⟩

theorem roundedMean?_eq {amounts : List UInt64} (h : amounts.length ≤ 2 ^ 64) :
    roundedMean? amounts = some (roundedMean amounts) := by
  obtain ⟨hsum, htally⟩ := foldlM_plus? isTally_zero (by omega : 0 + amounts.length ≤ _)
  rw [Nat.zero_add] at hsum
  rw [Nat.zero_add, Nat.zero_add] at htally
  rw [roundedMean?, sum?, hsum, Option.bind_eq_bind, Option.bind_some, htally.roundedDiv?_eq,
    roundedMean]

namespace Window

/-! ### Totals of partitions -/

/-- Totals over at most so many entries. -/
def AreTallies (entries : ℕ) (totals : List Total) : Prop :=
  ∀ t ∈ totals, IsTally t.sum t.count ∧ t.count ≤ entries

/-- An entry that is taken in passes no bound. -/
theorem countIn?_eq {entries : ℕ} (hentries : entries < 2 ^ 64) (p : PartitionUsage) :
    ∀ {totals : List Total}, AreTallies entries totals →
      countIn? totals p = some (countIn totals p) ∧ AreTallies (entries + 1) (countIn totals p)
  | [], _ => by
    refine ⟨rfl, fun t ht => ?_⟩
    rw [List.mem_singleton.mp ht]
    exact ⟨isTally_one p.used, Nat.le_add_left 1 entries⟩
  | total :: rest, h => by
    obtain ⟨⟨htotal, hcount⟩, hrest⟩ := List.forall_mem_cons.mp h
    have hmore : AreTallies (entries + 1) rest :=
      fun t ht => ⟨(hrest t ht).1, Nat.le_succ_of_le (hrest t ht).2⟩
    rw [countIn?, countIn]
    split
    · have hlt : total.count < 2 ^ 64 := Nat.lt_of_le_of_lt hcount hentries
      rw [htotal.plus?_eq hlt, htotal.plus?_one]
      exact ⟨rfl, List.forall_mem_cons.mpr
        ⟨⟨htotal.plus hlt p.used, Nat.succ_le_succ hcount⟩, hmore⟩⟩
    · obtain ⟨hcounted, htallies⟩ := countIn?_eq hentries p hrest
      rw [hcounted]
      exact ⟨rfl, List.forall_mem_cons.mpr ⟨⟨htotal, Nat.le_succ_of_le hcount⟩, htallies⟩⟩

theorem foldlM_countIn? : ∀ {entries : List PartitionUsage} {totals : List Total} {before : ℕ},
    AreTallies before totals → before + entries.length ≤ 2 ^ 64 →
    entries.foldlM countIn? totals = some (entries.foldl countIn totals) ∧
      AreTallies (before + entries.length) (entries.foldl countIn totals)
  | [], _, _, h, _ => ⟨rfl, h⟩
  | p :: entries, totals, before, h, hfits => by
    rw [List.length_cons] at hfits
    obtain ⟨hcounted, htallies⟩ := countIn?_eq (by omega : before < _) p h
    obtain ⟨hfold, hall⟩ :=
      foldlM_countIn? htallies (by omega : before + 1 + entries.length ≤ _)
    rw [List.foldlM_cons, hcounted, Option.bind_eq_bind, Option.bind_some, hfold, List.foldl_cons,
      List.length_cons, Nat.add_comm _ 1, ← Nat.add_assoc]
    exact ⟨rfl, hall⟩

theorem totals?_eq {readings : List Reading}
    (h : (readings.flatMap (·.partitions)).length ≤ 2 ^ 64) :
    totals? readings = some (totals readings) ∧
      ∀ t ∈ totals readings, IsTally t.sum t.count := by
  obtain ⟨hfold, hall⟩ := foldlM_countIn? (fun t ht => absurd ht List.not_mem_nil :
    AreTallies 0 []) (by omega : 0 + (readings.flatMap (·.partitions)).length ≤ _)
  exact ⟨hfold, fun t ht => (hall t ht).1⟩

/-! ### Averages -/

theorem mapM_eq_some {α β : Type} {f : α → Option β} {g : α → β} :
    ∀ {l : List α}, (∀ a ∈ l, f a = some (g a)) → l.mapM f = some (l.map g)
  | [], _ => rfl
  | a :: l, h => by
    obtain ⟨ha, hl⟩ := List.forall_mem_cons.mp h
    rw [List.mapM_cons, ha, mapM_eq_some hl]
    rfl

/-- **No average passes a bound**: that of a machine is the average, as long as addresses of
64 bits tell apart what the window holds. -/
theorem average?_eq {w : Window} (h : w.held ≤ 2 ^ 64) (entity : String) :
    w.average? entity = some (w.average entity) := by
  have hreadings : w.readings.length ≤ 2 ^ 64 := Nat.le_trans (Nat.le_add_right _ _) h
  have hentries : (w.readings.flatMap (·.partitions)).length ≤ 2 ^ 64 :=
    Nat.le_trans (Nat.le_add_left _ _) h
  obtain ⟨htotals, htallies⟩ := totals?_eq hentries
  have hmean : ∀ figure : Reading → Figure, roundedMean? (w.readings.map figure) =
      some (roundedMean (w.readings.map figure)) :=
    fun figure => roundedMean?_eq (by rwa [List.length_map])
  have hpartitions := mapM_eq_some fun t ht =>
    congrArg (Option.map (PartitionUsage.mk t.name)) (htallies t ht).roundedDiv?_eq
  cases hlatest : w.readings.getLast? with
  | none => rw [average?, average, hlatest]
  | some latest =>
    simp only [average?, average, hlatest, averageOf?, htotals, hmean, hpartitions,
      Option.bind_eq_bind, Option.bind_some, Option.map_some]
    rfl

end Window

end QuotaWatch
