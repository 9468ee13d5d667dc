/-
# The share of the CPU over whole runs

A usage is sampled again and again, and every call finds other files or none. A call that
fails leaves the usage as it was (`Provider.sample_of_none`), so the counter and the time
behind the next CPU figure are those of the last call that succeeded
(`Provider.basedOn_after`). The figure is the time used between the two as a share of what
all CPUs could have given, rounded down and never above the whole, and every step of that
arithmetic stays within its word (`cpuBetween?_eq`). Since it is rounded down, all
figures of a run together account for no more CPU time than the counter tells
(`Provider.accounted_le_increase`).

Key definitions: `Call`, `Call.sample?`, `shareOf`, `Provider.after`, `Provider.accounted`,
`cpuBetween?`, `increase`.
Key theorems: `cpuBetween?_eq`, `Provider.basedOn_after`, `Provider.accounted_le`,
`Provider.accounted_le_increase`, `Provider.cpu_of_run`.
-/
import Mathlib.Algebra.Group.Int.Defs
import Mathlib.Algebra.Group.Nat.Defs
import Mathlib.Data.List.Induction
import QuotaWatch.Source.Cgroup

namespace QuotaWatch.Cgroup

open Time Text

/-! ### Calls -/

/-- A call for an instance: what it finds of the files, and the time of day. -/
structure Call where
  id : String
  found : Except IoFault Files
  now : Timestamp

/-- What a call that succeeds reads. -/
structure Sample where
  counter : UInt64
  ram : UInt64
  now : Timestamp
deriving DecidableEq

/-- What a call reads: something stands in the place of the directory, both files can be
read, and each has its number. -/
def Call.sample? (c : Call) : Option Sample := do
  let files ← c.found.toOption
  let stat ← files.cpuStat.toOption
  let counter ← (parseCpuTime stat).toOption
  let memory ← files.memory.toOption
  let ram ← readWord? (trim memory.toList)
  some ⟨counter, ram, c.now⟩

/-- The samples of the calls that succeed. -/
def samples (calls : List Call) : List Sample := calls.filterMap (·.sample?)

/-- Whole microseconds from one time to another. -/
def microsFrom (since now : Timestamp) : ℤ := (since.between now).tdiv 1000

/-- The share of `cpus` CPUs that was used from one sample to the next, in hundredths of a
percent. It is zero where no time passed, and where a signed word of 64 bits does not hold
the microseconds. -/
def shareOf (cpus : ℕ) (before after : Sample) : ℕ :=
  let micros := microsFrom before.now after.now
  if micros ≤ 0 ∨ 2 ^ 63 ≤ micros then 0
  else min 10000
    ((after.counter.toNat - before.counter.toNat) * 10000 / (micros.toNat * cpus))

/-- How far the counter went up over samples. -/
def increase (ss : List Sample) : ℕ :=
  match ss.head?, ss.getLast? with
  | some first, some last => last.counter.toNat - first.counter.toNat
  | _, _ => 0

/-- The usage behind calls. -/
def Provider.after (p : Provider) (usage : InstanceUsage) (calls : List Call) : InstanceUsage :=
  calls.foldl (fun usage c => (p.sample c.id c.found usage c.now).1) usage

/-- What the figures of a run account for: each figure times the microseconds that it covers
and the CPUs that it is a share of. -/
def Provider.accounted (p : Provider) (usage : InstanceUsage) : List Call → ℕ
  | [] => 0
  | c :: calls =>
    let (next, fault) := p.sample c.id c.found usage c.now
    let micros := usage.sampledAt.elim 0 fun since => (microsFrom since c.now).toNat
    (if fault.isNone then next.cpu.toNat * micros * p.cpus.toNat else 0) + p.accounted next calls

/-! ### Arithmetic with bounds -/

/-- A product, where 128 bits hold it. -/
def times? (a b : ℕ) : Option ℕ := if a * b < 2 ^ 128 then some (a * b) else none

/-- A quotient, where the divisor is not zero. -/
def quotient? (a b : ℕ) : Option ℕ := if b = 0 then none else some (a / b)

/-- A number as a word, where 64 bits hold it. -/
def word? (n : ℕ) : Option UInt64 := if n < 2 ^ 64 then some (UInt64.ofNat n) else none

/-- The share of all CPUs that was used, where every step stays within its bounds. -/
def cpuBetween? (cpus before after : UInt64) (micros : ℕ) : Option Figure :=
  if micros = 0 then some 0
  else do
    let wall ← word? micros
    let used ← times? (after.toNat - before.toNat) fullCpu.toNat
    let capacity ← times? wall.toNat cpus.toNat
    let share ← quotient? used capacity
    word? (min fullCpu.toNat share)

theorem toNat_cpuBetween (cpus before after : UInt64) (micros : ℕ) :
    (cpuBetween cpus before after micros).toNat =
      if micros = 0 then 0
      else min 10000 ((after.toNat - before.toNat) * 10000 / (micros * cpus.toNat)) := by
  unfold cpuBetween
  have hfull : fullCpu.toNat = 10000 := rfl
  split
  · rfl
  · rw [hfull, UInt64.toNat_ofNat_of_lt']
    have := Nat.min_le_left 10000
      ((after.toNat - before.toNat) * 10000 / (micros * cpus.toNat))
    exact Nat.lt_of_le_of_lt this (by decide)

/-- **No step passes its bound**: the products fit 128 bits, there is something to divide by,
and the share fits 64 bits. -/
theorem cpuBetween?_eq {cpus : UInt64} (hcpus : 0 < cpus.toNat) (before after : UInt64)
    {micros : ℕ} (hmicros : micros < 2 ^ 64) :
    cpuBetween? cpus before after micros = some (cpuBetween cpus before after micros) := by
  by_cases hzero : micros = 0
  · simp [cpuBetween?, cpuBetween, hzero]
  · have hfull : fullCpu.toNat = 10000 := rfl
    have hwall : word? micros = some (UInt64.ofNat micros) := if_pos hmicros
    have hmicros' : (UInt64.ofNat micros).toNat = micros := UInt64.toNat_ofNat_of_lt' hmicros
    have hused : times? (after.toNat - before.toNat) 10000 =
        some ((after.toNat - before.toNat) * 10000) := by
      have := after.toNat_lt
      exact if_pos (by omega)
    have hcapacity : times? micros cpus.toNat = some (micros * cpus.toNat) := by
      have hproduct : micros * cpus.toNat < 2 ^ 64 * 2 ^ 64 :=
        Nat.mul_lt_mul'' hmicros cpus.toNat_lt
      exact if_pos (by omega)
    have hdivisor : micros * cpus.toNat ≠ 0 := Nat.mul_ne_zero hzero (by omega)
    have hword : ∀ share : ℕ, word? (min 10000 share) = some (UInt64.ofNat (min 10000 share)) :=
      fun share => if_pos (by omega)
    rw [cpuBetween?, if_neg hzero, cpuBetween, if_neg hzero, hwall, hfull]
    simp only [Option.bind_eq_bind, Option.bind_some, hmicros', hused, hcapacity, quotient?,
      if_neg hdivisor, hword]

theorem microsBetween_eq (since now : Timestamp) :
    microsBetween since now =
      if 2 ^ 63 ≤ microsFrom since now then 0 else (microsFrom since now).toNat := by
  unfold microsBetween microsFrom
  dsimp only
  by_cases hlong : 2 ^ 63 ≤ (since.between now).tdiv 1000
  · rw [if_pos hlong, if_neg (by omega)]
  · rw [if_neg hlong, if_pos (by omega)]

theorem microsBetween_lt (since now : Timestamp) : microsBetween since now < 2 ^ 63 := by
  rw [microsBetween_eq]
  split <;> omega

/-- The figure is the share, whatever the times are. -/
theorem toNat_cpuBetween_eq_shareOf (cpus : UInt64) (before after : Sample) :
    (cpuBetween cpus before.counter after.counter (microsBetween before.now after.now)).toNat =
      shareOf cpus.toNat before after := by
  rw [toNat_cpuBetween, microsBetween_eq, shareOf]
  by_cases hlong : 2 ^ 63 ≤ microsFrom before.now after.now
  · rw [if_pos hlong, if_pos rfl]
    exact (if_pos (Or.inr hlong)).symm
  · rw [if_neg hlong]
    by_cases hpassed : microsFrom before.now after.now ≤ 0
    · rw [if_pos (by omega)]
      exact (if_pos (Or.inl hpassed)).symm
    · rw [if_neg (by omega)]
      exact (if_neg (by omega)).symm

/-- A share is rounded down, so it accounts for no more than what was used. -/
theorem shareOf_mul_le (cpus : ℕ) (before after : Sample) :
    shareOf cpus before after * (microsFrom before.now after.now).toNat * cpus ≤
      10000 * (after.counter.toNat - before.counter.toNat) := by
  unfold shareOf
  dsimp only
  split
  · simp
  · have hfloor := Nat.min_le_right 10000 ((after.counter.toNat - before.counter.toNat) * 10000 /
      ((microsFrom before.now after.now).toNat * cpus))
    calc _ = _ * ((microsFrom before.now after.now).toNat * cpus) := Nat.mul_assoc _ _ _
      _ ≤ (after.counter.toNat - before.counter.toNat) * 10000 /
            ((microsFrom before.now after.now).toNat * cpus) *
            ((microsFrom before.now after.now).toNat * cpus) := Nat.mul_le_mul_right _ hfloor
      _ ≤ (after.counter.toNat - before.counter.toNat) * 10000 := Nat.div_mul_le_self _ _
      _ = 10000 * (after.counter.toNat - before.counter.toNat) := Nat.mul_comm _ _

/-! ### Single calls -/

/-- The usage was left by a sample, or by none so far. -/
def IsBasedOn (usage : InstanceUsage) (last : Option Sample) : Prop :=
  usage.counter = last.map (·.counter) ∧ usage.sampledAt = last.map (·.now)

/-- The CPU figure of a sample behind the last one that there was. -/
def figureBehind (cpus : ℕ) (last : Option Sample) (s : Sample) : ℕ :=
  last.elim 0 fun before => shareOf cpus before s

theorem figureBehind_le (cpus : ℕ) (last : Option Sample) (s : Sample) :
    figureBehind cpus last s ≤ 10000 := by
  cases last with
  | none => exact Nat.zero_le _
  | some before =>
    show shareOf cpus before s ≤ 10000
    unfold shareOf
    dsimp only
    split
    · exact Nat.zero_le _
    · exact Nat.min_le_left _ _

theorem now_of_sample? {c : Call} {s : Sample} (h : c.sample? = some s) : s.now = c.now := by
  simp only [Call.sample?, Option.bind_eq_bind, Option.bind_eq_some_iff] at h
  obtain ⟨_, -, _, -, _, -, _, -, _, -, h⟩ := h
  cases h
  rfl

namespace Provider

variable {p : Provider} {usage : InstanceUsage} {c : Call} {s : Sample} {last : Option Sample}

/-- Reading gives the numbers of the sample, or a fault where there is none. -/
theorem read_eq (p : Provider) (c : Call) :
    (p.read c.id c.found).toOption = c.sample?.map fun s => (s.counter, s.ram) := by
  unfold read Call.sample?
  cases c.found with
  | error fault => cases fault <;> rfl
  | ok files =>
    cases hstat : files.cpuStat with
    | error fault => simp [hstat, Except.toOption, Except.mapError, bind, Except.bind]
    | ok stat =>
      cases hcounter : parseCpuTime stat with
      | error fault => simp [hstat, hcounter, Except.toOption, Except.mapError, bind, Except.bind]
      | ok counter =>
        cases hmemory : files.memory with
        | error fault =>
          simp [hstat, hcounter, hmemory, Except.toOption, Except.mapError, bind, Except.bind]
        | ok memory =>
          cases hram : readWord? (trim memory.toList) <;>
            simp [hstat, hcounter, hmemory, hram, parseValue, Except.toOption, Except.mapError,
              bind, Except.bind]

/-- A call that reads nothing fails and changes nothing. -/
theorem sample_of_none (p : Provider) (usage : InstanceUsage) (h : c.sample? = none) :
    ∃ fault, p.sample c.id c.found usage c.now = (usage, some fault) := by
  have hread := p.read_eq c
  rw [h] at hread
  cases hfault : p.read c.id c.found with
  | ok found =>
    rw [hfault] at hread
    cases hread
  | error fault => exact ⟨fault, by rw [sample, hfault]⟩

/-- A call that reads a sample leaves it, with the share since the last one. -/
theorem sample_of_some (p : Provider) (hbase : IsBasedOn usage last) (h : c.sample? = some s) :
    ∃ cpu : Figure, p.sample c.id c.found usage c.now =
        (⟨cpu, s.ram, some s.counter, some s.now⟩, none) ∧
      cpu.toNat = figureBehind p.cpus.toNat last s := by
  have hread := p.read_eq c
  rw [h] at hread
  cases hfound : p.read c.id c.found with
  | error fault =>
    rw [hfound] at hread
    cases hread
  | ok found =>
    rw [hfound] at hread
    cases hread
    rw [sample, hfound, ← now_of_sample? h]
    refine ⟨_, rfl, ?_⟩
    cases last with
    | none =>
      rw [hbase.1, hbase.2]
      rfl
    | some before =>
      rw [hbase.1, hbase.2]
      exact toNat_cpuBetween_eq_shareOf p.cpus before s

/-! ### Runs -/

theorem after_concat (p : Provider) (usage : InstanceUsage) (calls : List Call) (c : Call) :
    p.after usage (calls ++ [c]) =
      (p.sample c.id c.found (p.after usage calls) c.now).1 := by
  rw [after, List.foldl_append, List.foldl_cons, List.foldl_nil, after]

theorem samples_concat (calls : List Call) (c : Call) :
    samples (calls ++ [c]) = samples calls ++ c.sample?.toList := by
  rw [samples, List.filterMap_append, samples]
  cases hsample : c.sample? with
  | none => rw [List.filterMap_cons_none hsample]; rfl
  | some s => rw [List.filterMap_cons_some hsample]; rfl

/-- **The base of the next figure** is the last call that succeeded, whatever failed since. -/
theorem basedOn_after (p : Provider) (calls : List Call) :
    IsBasedOn (p.after {} calls) (samples calls).getLast? := by
  induction calls using List.reverseRecOn with
  | nil => exact ⟨rfl, rfl⟩
  | append_singleton calls c ih =>
    rw [after_concat, samples_concat]
    cases hsample : c.sample? with
    | none =>
      obtain ⟨fault, hfails⟩ := p.sample_of_none (p.after {} calls) hsample
      rw [hfails, Option.toList_none, List.append_nil]
      exact ih
    | some s =>
      obtain ⟨cpu, hsucceeds, -⟩ := p.sample_of_some ih hsample
      rw [hsucceeds, Option.toList_some, List.getLast?_concat]
      exact ⟨rfl, rfl⟩

/-- Behind a sample the figures account for no more than the counter went up. -/
theorem accounted_le (p : Provider) : ∀ (calls : List Call) {usage : InstanceUsage} {last : Sample},
    IsBasedOn usage (some last) →
    (last :: samples calls).IsChain (fun before s => before.counter ≤ s.counter) →
    p.accounted usage calls + 10000 * last.counter.toNat ≤
      10000 * (((samples calls).getLast?.getD last).counter.toNat)
  | [], usage, last, _, _ => by simp [accounted, samples]
  | c :: calls, usage, last, hbase, hchain => by
    cases hsample : c.sample? with
    | none =>
      obtain ⟨fault, hfails⟩ := p.sample_of_none usage hsample
      have hsamples : samples (c :: calls) = samples calls := List.filterMap_cons_none hsample
      rw [hsamples] at hchain ⊢
      have ih := accounted_le p calls hbase hchain
      simpa [accounted, hfails] using ih
    | some s =>
      obtain ⟨cpu, hsucceeds, hcpu⟩ := p.sample_of_some hbase hsample
      have hsamples : samples (c :: calls) = s :: samples calls :=
        List.filterMap_cons_some hsample
      rw [hsamples] at hchain ⊢
      obtain ⟨hle, hrest⟩ := List.isChain_cons_cons.mp hchain
      have hnext : IsBasedOn ⟨cpu, s.ram, some s.counter, some s.now⟩ (some s) := ⟨rfl, rfl⟩
      have ih := accounted_le p calls hnext hrest
      have hshare := shareOf_mul_le p.cpus.toNat last s
      have hle : last.counter.toNat ≤ s.counter.toNat := hle
      have hstep : p.accounted usage (c :: calls) =
          cpu.toNat * (microsFrom last.now s.now).toNat * p.cpus.toNat +
            p.accounted ⟨cpu, s.ram, some s.counter, some s.now⟩ calls := by
        rw [accounted, hsucceeds, hbase.2, ← now_of_sample? hsample]
        rfl
      have hcpu : cpu.toNat = shareOf p.cpus.toNat last s := hcpu
      rw [hstep, hcpu, List.getLast?_cons, Option.getD_some]
      omega

/-- Behind a fresh usage they account for no more than the counter went up since the first
call that succeeded. -/
theorem accounted_le_increase (p : Provider) : ∀ (calls : List Call) {usage : InstanceUsage},
    IsBasedOn usage none →
    (samples calls).IsChain (fun before s => before.counter ≤ s.counter) →
    p.accounted usage calls ≤ 10000 * increase (samples calls)
  | [], _, _, _ => Nat.zero_le _
  | c :: calls, usage, hbase, hchain => by
    cases hsample : c.sample? with
    | none =>
      obtain ⟨fault, hfails⟩ := p.sample_of_none usage hsample
      have hsamples : samples (c :: calls) = samples calls := List.filterMap_cons_none hsample
      rw [hsamples] at hchain ⊢
      have ih := accounted_le_increase p calls hbase hchain
      simpa [accounted, hfails] using ih
    | some s =>
      obtain ⟨cpu, hsucceeds, -⟩ := p.sample_of_some hbase hsample
      have hsamples : samples (c :: calls) = s :: samples calls :=
        List.filterMap_cons_some hsample
      rw [hsamples] at hchain ⊢
      have hnext : IsBasedOn ⟨cpu, s.ram, some s.counter, some s.now⟩ (some s) := ⟨rfl, rfl⟩
      have hrest := p.accounted_le calls hnext hchain
      -- the first sample covers no time
      have hstep : p.accounted usage (c :: calls) =
          p.accounted ⟨cpu, s.ram, some s.counter, some s.now⟩ calls := by
        rw [accounted, hsucceeds, hbase.2]
        simp
      have hincrease : increase (s :: samples calls) =
          ((samples calls).getLast?.getD s).counter.toNat - s.counter.toNat := by
        rw [increase, List.head?_cons, List.getLast?_cons]
      rw [hstep, hincrease]
      omega

theorem toNat_cpus_new (root : String) (cpus : UInt64) :
    (Provider.new root cpus).cpus.toNat = max cpus.toNat 1 := by
  show (if cpus ≤ 1 then 1 else cpus).toNat = _
  by_cases h : cpus ≤ 1
  · rw [if_pos h]
    have := UInt64.le_iff_toNat_le.mp h
    exact (Nat.max_eq_right this).symm
  · rw [if_neg h]
    have := UInt64.lt_iff_toNat_lt.mp (UInt64.not_le.mp h)
    exact (Nat.max_eq_left (Nat.le_of_lt this)).symm

theorem cpu_after_le (p : Provider) (calls : List Call) :
    (p.after {} calls).cpu.toNat ≤ 10000 := by
  induction calls using List.reverseRecOn with
  | nil => exact Nat.zero_le _
  | append_singleton calls c ih =>
    rw [after_concat]
    cases hsample : c.sample? with
    | none =>
      obtain ⟨fault, hfails⟩ := p.sample_of_none (p.after {} calls) hsample
      rw [hfails]
      exact ih
    | some s =>
      obtain ⟨cpu, hsucceeds, hcpu⟩ := p.sample_of_some (p.basedOn_after calls) hsample
      have hle := figureBehind_le p.cpus.toNat (samples calls).getLast? s
      rw [hsucceeds]
      show cpu.toNat ≤ 10000
      rw [hcpu]
      exact hle

/-- **The CPU figure over whole runs.** Behind any calls, one that fails leaves the
usage as it was, and one that succeeds gives the share of the CPU since the last that
did. The figure is at most the whole, no step of its arithmetic leaves its word, and
where the counter does not fall all figures together account for no more CPU time than
it went up. -/
theorem cpu_of_run (root : String) (cpus : UInt64) :
    (∀ (calls : List Call) (c : Call),
      match c.sample? with
      | none => ∃ fault, (new root cpus).sample c.id c.found ((new root cpus).after {} calls) c.now =
          ((new root cpus).after {} calls, some fault)
      | some s => ∃ cpu : Figure,
          (new root cpus).sample c.id c.found ((new root cpus).after {} calls) c.now =
            (⟨cpu, s.ram, some s.counter, some c.now⟩, none) ∧
          cpu.toNat = figureBehind (max cpus.toNat 1) (samples calls).getLast? s) ∧
      (∀ calls : List Call, ((new root cpus).after {} calls).cpu.toNat ≤ 10000) ∧
      (∀ (before after : UInt64) (since now : Timestamp),
        cpuBetween? (new root cpus).cpus before after (microsBetween since now) =
          some (cpuBetween (new root cpus).cpus before after (microsBetween since now))) ∧
      ∀ calls : List Call,
        (samples calls).IsChain (fun before s => before.counter ≤ s.counter) →
          (new root cpus).accounted {} calls ≤ 10000 * increase (samples calls) := by
  have hcpus : (new root cpus).cpus.toNat = max cpus.toNat 1 := toNat_cpus_new root cpus
  refine ⟨fun calls c => ?_, cpu_after_le _, fun before after since now => ?_,
    fun calls hchain => ?_⟩
  · have hbase := (new root cpus).basedOn_after calls
    cases hsample : c.sample? with
    | none => exact (new root cpus).sample_of_none _ hsample
    | some s =>
      have hsucceeds := (new root cpus).sample_of_some hbase hsample
      rw [hcpus, now_of_sample? hsample] at hsucceeds
      exact hsucceeds
  · have hmicros := microsBetween_lt since now
    exact cpuBetween?_eq (by omega) before after (by omega)
  · exact (new root cpus).accounted_le_increase calls ⟨rfl, rfl⟩ hchain

/-- A CPU second within a second of time, with a call in between that finds no memory file. -/
def oneSecond : List Call :=
  [⟨"a", .ok ⟨.ok "usage_usec 1000000\n", .ok "512\n"⟩, ⟨0, false⟩⟩,
    ⟨"a", .ok ⟨.ok "usage_usec 1400000\n", .error .notFound⟩, ⟨500000000, false⟩⟩,
    ⟨"a", .ok ⟨.ok "usage_usec 2000000\n", .ok "1024\n"⟩, ⟨1000000000, false⟩⟩]

/-- Half of two CPUs, and the figures account for all of the counter. -/
theorem cpu_of_run_oneSecond :
    samples oneSecond = [⟨1000000, 512, ⟨0, false⟩⟩, ⟨2000000, 1024, ⟨1000000000, false⟩⟩] ∧
      ((Provider.new "/sys/fs/cgroup" 2).after {} oneSecond).cpu = 5000 ∧
      (Provider.new "/sys/fs/cgroup" 2).accounted {} oneSecond = 10000 * 1000000 ∧
      (Provider.new "/sys/fs/cgroup" 2).accounted {} oneSecond ≤
        10000 * increase (samples oneSecond) := by
  have hsamples : samples oneSecond =
      [⟨1000000, 512, ⟨0, false⟩⟩, ⟨2000000, 1024, ⟨1000000000, false⟩⟩] := by decide +kernel
  have hchain : (samples oneSecond).IsChain fun before s => before.counter ≤ s.counter := by
    rw [hsamples]
    decide
  obtain ⟨-, -, -, haccounted⟩ := cpu_of_run "/sys/fs/cgroup" 2
  exact ⟨hsamples, by decide +kernel, by decide +kernel, haccounted oneSecond hchain⟩

end Provider

end QuotaWatch.Cgroup
