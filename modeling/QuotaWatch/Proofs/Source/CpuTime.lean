/-
# The CPU time in the statistics of a group

The first word of a line is its key. The CPU time is the second word of the
first line with the key of the CPU time, if that is a number of 64 bits:
digits, with or without a plus sign (`parseCpuTime_eq_ok`); if it is not, the
fault names it (`parseCpuTime_eq_error`). So only the lines with that key count,
wherever others stand and however they end (`parseCpuTime_congr`), and a block
of statistics is read back (`parseCpuTime_block`).

Key definitions: `Text.Opens`, `Cgroup.IsNumeral`, `Cgroup.HasTime`, `Cgroup.Gives`,
`Cgroup.Page`, `Cgroup.Statistic`.
Key theorems: `Text.words_eq_cons_iff`, `Cgroup.lines_eq_splitOn`, `Cgroup.readWord?_eq_some`,
`Cgroup.parseCpuTime_eq_ok`, `Cgroup.parseCpuTime_eq_error`, `Cgroup.parseCpuTime_congr`,
`Cgroup.parseCpuTime_block`.
-/
import QuotaWatch.Source.Cgroup
import QuotaWatch.Proofs.Decimal.Digits
import QuotaWatch.Proofs.Json.Text
import QuotaWatch.Proofs.Time.Text

namespace QuotaWatch

/-! ### Words -/

namespace Text

/-- A word: characters that are not blank, at least one. -/
structure IsToken (word : List Char) : Prop where
  ne_nil : word ≠ []
  solid : ∀ c ∈ word, isBlank c = false

/-- Nothing but blanks. -/
def IsGap (cs : List Char) : Prop := ∀ c ∈ cs, isBlank c = true

/-- Blanks aside, a text starts with a word, and `rest` stands behind that. -/
def Opens (cs word rest : List Char) : Prop :=
  IsToken word ∧ (∀ c ∈ rest.head?, isBlank c = true) ∧
    ∃ gap, IsGap gap ∧ cs = gap ++ (word ++ rest)

variable {cs gap word rest : List Char}

theorem wordsFrom_gap (hgap : IsGap gap) (cs : List Char) :
    wordsFrom [] (gap ++ cs) = wordsFrom [] cs := by
  induction gap with
  | nil => rfl
  | cons c gap ih =>
    obtain ⟨hc, hrest⟩ := List.forall_mem_cons.mp hgap
    rw [List.cons_append, wordsFrom, if_pos hc]
    exact ih hrest

theorem wordsFrom_append (cs : List Char) : ∀ {ds : List Char} (word : List Char),
    (∀ c ∈ ds, isBlank c = false) → wordsFrom word (ds ++ cs) = wordsFrom (ds.reverse ++ word) cs
  | [], _, _ => rfl
  | d :: ds, word, h => by
    obtain ⟨hd, hds⟩ := List.forall_mem_cons.mp h
    simp [wordsFrom, hd, wordsFrom_append cs (d :: word) hds]

/-- A word ends where the text ends or a blank stands. -/
theorem wordsFrom_behind (hne : word ≠ []) (hrest : ∀ c ∈ rest.head?, isBlank c = true) :
    wordsFrom word rest = word.reverse :: words rest := by
  cases rest with
  | nil => simp [wordsFrom, words, hne]
  | cons c rest =>
    have hc : isBlank c = true := hrest c rfl
    simp [wordsFrom, words, hne, hc]

theorem words_of_opens (h : Opens cs word rest) : words cs = word :: words rest := by
  obtain ⟨⟨hne, hsolid⟩, hrest, gap, hgap, rfl⟩ := h
  rw [words, wordsFrom_gap hgap, wordsFrom_append _ _ hsolid, List.append_nil,
    wordsFrom_behind (by simpa using hne) hrest, List.reverse_reverse]

theorem words_of_gap (h : IsGap cs) : words cs = [] := by
  rw [words, ← List.append_nil cs, wordsFrom_gap h]
  rfl

/-- There are blanks only, or there is a first word. -/
theorem gap_or_opens : ∀ cs : List Char, IsGap cs ∨ ∃ word rest, Opens cs word rest
  | [] => .inl (by simp [IsGap])
  | c :: cs => by
    by_cases hc : isBlank c = true
    · rcases gap_or_opens cs with hgap | ⟨word, rest, hword, hrest, gap, hgap, rfl⟩
      · exact .inl (List.forall_mem_cons.mpr ⟨hc, hgap⟩)
      · exact .inr ⟨word, rest, hword, hrest, c :: gap, List.forall_mem_cons.mpr ⟨hc, hgap⟩, rfl⟩
    · -- the word goes on up to the first blank
      have hsolid : ∀ d ∈ cs.takeWhile (!isBlank ·), isBlank d = false := fun d hd => by
        simpa using List.mem_takeWhile_imp hd
      have hword : IsToken (c :: cs.takeWhile (!isBlank ·)) :=
        ⟨List.cons_ne_nil _ _, List.forall_mem_cons.mpr ⟨by simpa using hc, hsolid⟩⟩
      have hrest : ∀ d ∈ (cs.dropWhile (!isBlank ·)).head?, isBlank d = true := fun d hd => by
        have := List.head?_dropWhile_not (!isBlank ·) cs
        rw [hd] at this
        simpa using this
      refine .inr ⟨_, _, hword, hrest, [], by simp [IsGap], ?_⟩
      rw [List.nil_append, List.cons_append, List.takeWhile_append_dropWhile]

/-- **The first word of a text** and those behind it. -/
theorem words_eq_cons_iff {ws : List (List Char)} :
    words cs = word :: ws ↔ ∃ rest, Opens cs word rest ∧ words rest = ws := by
  constructor
  · intro h
    rcases gap_or_opens cs with hgap | ⟨first, rest, hopens⟩
    · rw [words_of_gap hgap] at h
      cases h
    · rw [words_of_opens hopens] at h
      obtain ⟨rfl, hws⟩ := List.cons.inj h
      exact ⟨rest, hopens, hws⟩
  · rintro ⟨rest, hopens, rfl⟩
    exact words_of_opens hopens

/-- Blanks at its end do not change the words of a text. -/
theorem wordsFrom_append_gap (hgap : IsGap gap) : ∀ (cs word : List Char),
    wordsFrom word (cs ++ gap) = wordsFrom word cs
  | [], word => by
    by_cases hword : word = []
    · subst hword
      exact words_of_gap hgap
    · have hhead : ∀ c ∈ gap.head?, isBlank c = true := fun c hc => hgap c (List.mem_of_mem_head? hc)
      rw [List.nil_append, wordsFrom_behind hword hhead, words_of_gap hgap]
      simp [wordsFrom, hword]
  | c :: cs, word => by
    simp only [List.cons_append, wordsFrom, wordsFrom_append_gap hgap cs]

end Text

namespace Cgroup

open Text

/-! ### Lines -/

theorem lines_eq_splitOn : ∀ cs : List Char, lines cs = cs.splitOn '\n'
  | [] => rfl
  | c :: cs => by
    have ih := lines_eq_splitOn cs
    rw [List.splitOn_cons_eq_if_modifyHead, ← ih]
    by_cases hc : c = '\n'
    · simp [hc, lines]
    · obtain ⟨first, others, hcs⟩ := List.exists_cons_of_ne_nil (ih ▸ List.splitOn_ne_nil '\n' cs)
      simp [hc, lines, hcs]

theorem not_mem_of_mem_lines : ∀ cs : List Char, ∀ line ∈ lines cs, '\n' ∉ line
  | [] => by simp [lines]
  | c :: cs => by
    have ih := not_mem_of_mem_lines cs
    by_cases hc : c = '\n'
    · simpa [hc, lines] using ih
    · have hne : lines cs ≠ [] := lines_eq_splitOn cs ▸ List.splitOn_ne_nil '\n' cs
      obtain ⟨first, others, hcs⟩ := List.exists_cons_of_ne_nil hne
      rw [hcs] at ih
      obtain ⟨hfirst, hothers⟩ := List.forall_mem_cons.mp ih
      have hhead : '\n' ∉ c :: first := by simp [Ne.symm hc, hfirst]
      simp only [lines, hcs]
      exact List.forall_mem_cons.mpr ⟨hhead, hothers⟩

/-- **The lines of a text** stand between its newlines. -/
theorem lines_eq_iff {cs : List Char} {ls : List (List Char)} :
    lines cs = ls ↔ ls ≠ [] ∧ (∀ line ∈ ls, '\n' ∉ line) ∧ cs = ['\n'].intercalate ls := by
  constructor
  · rintro rfl
    refine ⟨?_, not_mem_of_mem_lines cs, ?_⟩
    · rw [lines_eq_splitOn]
      exact List.splitOn_ne_nil _ _
    · rw [lines_eq_splitOn, List.intercalate_splitOn]
  · rintro ⟨hne, hlines, rfl⟩
    rw [lines_eq_splitOn, List.splitOn_intercalate _ hlines hne]

theorem lines_append_newline (cs ds : List Char) :
    lines (cs ++ '\n' :: ds) = lines cs ++ lines ds := by
  simp only [lines_eq_splitOn, List.splitOn_append_cons_self]

/-! ### Numbers of 64 bits -/

/-- A text of digits that has this value, with a plus sign or without one. -/
def IsNumeral (cs : List Char) (n : ℕ) : Prop :=
  ∃ digits, (cs = digits ∨ cs = '+' :: digits) ∧ digits ≠ [] ∧
    (∀ c ∈ digits, c.isDigit = true) ∧ Decimal.value digits = n

theorem ofNat_eq_iff {m : ℕ} {n : UInt64} :
    (m ≤ Decimal.maxWord ∧ UInt64.ofNat m = n) ↔ m = n.toNat := by
  have hbound := n.toNat_lt
  have hmax : Decimal.maxWord + 1 = 2 ^ 64 := rfl
  rw [← UInt64.toNat_inj, UInt64.toNat_ofNat']
  omega

/-- Digits are read as a word if their number is one. -/
theorem wordOf_eq_some {digits : List Char} {n : UInt64} :
    ((Decimal.readNat? digits).bind fun m =>
      if m ≤ Decimal.maxWord then some (UInt64.ofNat m) else none) = some n ↔
    digits ≠ [] ∧ (∀ c ∈ digits, c.isDigit = true) ∧ Decimal.value digits = n.toNat := by
  simp only [Option.bind_eq_some_iff, Option.ite_none_right_eq_some, Option.some.injEq, ofNat_eq_iff]
  constructor
  · rintro ⟨m, hm, hn⟩
    obtain ⟨hne, hdigits, rfl⟩ := Decimal.readNat?_eq_some hm
    exact ⟨hne, hdigits, hn⟩
  · rintro ⟨hne, hdigits, hn⟩
    refine ⟨_, ?_, hn⟩
    have hall : digits.all Char.isDigit = true := List.all_eq_true.mpr hdigits
    simp [Decimal.readNat?, hne, hall]

/-- **A number is read** if it is one of 64 bits. -/
theorem readWord?_eq_some {cs : List Char} {n : UInt64} :
    readWord? cs = some n ↔ IsNumeral cs n.toNat := by
  unfold readWord?
  constructor
  · intro h
    split at h
    · exact ⟨_, .inr rfl, wordOf_eq_some.mp h⟩
    · exact ⟨_, .inl rfl, wordOf_eq_some.mp h⟩
  · rintro ⟨digits, rfl | rfl, h⟩
    · split
      · have : '+'.isDigit = true := h.2.1 _ List.mem_cons_self
        contradiction
      · exact wordOf_eq_some.mpr h
    · exact wordOf_eq_some.mpr h

/-! ### The line with the CPU time -/

/-- The key of the CPU time is the first word of the line. -/
def HasTime (line : List Char) : Prop := ∃ rest, Opens line cpuTimeKey rest

/-- The word behind the key of the CPU time, nothing if there is none. -/
def Gives (line value : List Char) : Prop :=
  ∃ rest, Opens line cpuTimeKey rest ∧ ((∃ more, Opens rest value more) ∨ IsGap rest ∧ value = [])

/-- What the word behind the key is read as. -/
def timeOf (value : List Char) : Except SourceFault UInt64 :=
  match readWord? value with
  | some n => .ok n
  | none => .error (.parse "cpu.stat usage_usec" (String.ofList value))

section Lines

variable {line value : List Char} {before after ls : List (List Char)} {n : UInt64}

theorem hasTime_iff : HasTime line ↔ (words line).head? = some cpuTimeKey := by
  rw [List.head?_eq_some_iff]
  constructor
  · rintro ⟨rest, h⟩
    exact ⟨_, words_of_opens h⟩
  · rintro ⟨ws, h⟩
    obtain ⟨rest, hopens, -⟩ := words_eq_cons_iff.mp h
    exact ⟨rest, hopens⟩

instance : DecidablePred HasTime := fun line =>
  decidable_of_decidable_of_iff (p := (words line).head? = some cpuTimeKey) hasTime_iff.symm

theorem words_of_gives (h : Gives line value) :
    ∃ values, words line = cpuTimeKey :: values ∧ values.head?.getD [] = value := by
  obtain ⟨rest, hkey, hvalue⟩ := h
  refine ⟨words rest, words_of_opens hkey, ?_⟩
  rcases hvalue with ⟨more, hopens⟩ | ⟨hgap, rfl⟩
  · rw [words_of_opens hopens, List.head?_cons, Option.getD_some]
  · rw [words_of_gap hgap, List.head?_nil, Option.getD_none]

theorem exists_gives (h : HasTime line) : ∃ value, Gives line value := by
  obtain ⟨rest, hopens⟩ := h
  rcases gap_or_opens rest with hgap | ⟨value, more, hvalue⟩
  · exact ⟨[], rest, hopens, .inr ⟨hgap, rfl⟩⟩
  · exact ⟨value, rest, hopens, .inl ⟨more, hvalue⟩⟩

theorem cpuTimeIn_of_gives (h : Gives line value) : cpuTimeIn (line :: ls) = timeOf value := by
  obtain ⟨values, hwords, rfl⟩ := words_of_gives h
  simp only [cpuTimeIn, hwords, ↓reduceIte]
  rfl

theorem cpuTimeIn_of_not (h : ¬ HasTime line) : cpuTimeIn (line :: ls) = cpuTimeIn ls := by
  rw [hasTime_iff] at h
  cases hwords : words line with
  | nil => simp only [cpuTimeIn, hwords]
  | cons key values =>
    have hkey : key ≠ cpuTimeKey := by simpa [hwords] using h
    simp only [cpuTimeIn, hwords, if_neg hkey]

/-- Lines without the key do not count. -/
theorem cpuTimeIn_filter : ∀ ls : List (List Char), cpuTimeIn ls = cpuTimeIn (ls.filter HasTime)
  | [] => rfl
  | line :: ls => by
    by_cases h : HasTime line
    · obtain ⟨value, hgives⟩ := exists_gives h
      rw [List.filter_cons_of_pos (by simpa using h), cpuTimeIn_of_gives hgives,
        cpuTimeIn_of_gives hgives]
    · rw [List.filter_cons_of_neg (by simpa using h), cpuTimeIn_of_not h]
      exact cpuTimeIn_filter ls

theorem cpuTimeIn_append : ∀ {before : List (List Char)}, (∀ line ∈ before, ¬ HasTime line) →
    cpuTimeIn (before ++ ls) = cpuTimeIn ls
  | [], _ => rfl
  | line :: before, h => by
    obtain ⟨hline, hbefore⟩ := List.forall_mem_cons.mp h
    rw [List.cons_append, cpuTimeIn_of_not hline, cpuTimeIn_append hbefore]

theorem cpuTimeIn_missing (h : ∀ line ∈ ls, ¬ HasTime line) :
    cpuTimeIn ls = .error (.parse "cpu.stat" "missing usage_usec") := by
  rw [← List.append_nil ls, cpuTimeIn_append h, cpuTimeIn]

theorem cpuTimeIn_first (hbefore : ∀ l ∈ before, ¬ HasTime l) (h : Gives line value) :
    cpuTimeIn (before ++ line :: after) = timeOf value := by
  rw [cpuTimeIn_append hbefore, cpuTimeIn_of_gives h]

/-- No line has the key, or there is a first one that has it. -/
theorem missing_or_first : ∀ ls : List (List Char), (∀ line ∈ ls, ¬ HasTime line) ∨
    ∃ before line after value, ls = before ++ line :: after ∧ (∀ l ∈ before, ¬ HasTime l) ∧
      Gives line value
  | [] => .inl (by simp)
  | line :: ls => by
    by_cases h : HasTime line
    · obtain ⟨value, hgives⟩ := exists_gives h
      exact .inr ⟨[], line, ls, value, rfl, by simp, hgives⟩
    · rcases missing_or_first ls with hnone | ⟨before, first, after, value, rfl, hbefore, hgives⟩
      · exact .inl (List.forall_mem_cons.mpr ⟨h, hnone⟩)
      · exact .inr ⟨line :: before, first, after, value, rfl,
          List.forall_mem_cons.mpr ⟨h, hbefore⟩, hgives⟩

theorem timeOf_eq_ok : timeOf value = .ok n ↔ IsNumeral value n.toNat := by
  rw [← readWord?_eq_some, timeOf]
  cases readWord? value <;> simp

theorem timeOf_eq_error {fault : SourceFault} :
    timeOf value = .error fault ↔ (∀ n : UInt64, ¬ IsNumeral value n.toNat) ∧
      fault = .parse "cpu.stat usage_usec" (String.ofList value) := by
  simp only [← readWord?_eq_some, timeOf]
  cases readWord? value <;> simp [eq_comm]

end Lines

/-! ### The time in a text -/

/-- The lines of a text, with newlines between them. -/
def HasLines (content : String) (ls : List (List Char)) : Prop :=
  ls ≠ [] ∧ (∀ line ∈ ls, '\n' ∉ line) ∧ content.toList = ['\n'].intercalate ls

/-- Of a text this is the first line with the key of the CPU time, and the word
behind the key. -/
def FirstGives (content : String) (value : List Char) : Prop :=
  ∃ before line after, HasLines content (before ++ line :: after) ∧
    (∀ l ∈ before, ¬ HasTime l) ∧ Gives line value

/-- No line of the text has the key. -/
def LacksTime (content : String) : Prop :=
  ∃ ls, HasLines content ls ∧ ∀ line ∈ ls, ¬ HasTime line

section Content

variable {content : String} {value : List Char} {ls : List (List Char)} {n : UInt64}

theorem parse_of_hasLines (h : HasLines content ls) : parseCpuTime content = cpuTimeIn ls := by
  rw [parseCpuTime, lines_eq_iff.mpr h]

theorem parse_of_firstGives (h : FirstGives content value) :
    parseCpuTime content = timeOf value := by
  obtain ⟨before, line, after, hlines, hbefore, hgives⟩ := h
  rw [parse_of_hasLines hlines, cpuTimeIn_first hbefore hgives]

theorem parse_of_lacksTime (h : LacksTime content) :
    parseCpuTime content = .error (.parse "cpu.stat" "missing usage_usec") := by
  obtain ⟨ls, hlines, hnone⟩ := h
  rw [parse_of_hasLines hlines, cpuTimeIn_missing hnone]

theorem lacks_or_gives (content : String) :
    LacksTime content ∨ ∃ value, FirstGives content value := by
  have hlines : HasLines content (lines content.toList) := lines_eq_iff.mp rfl
  rcases missing_or_first (lines content.toList) with
    hnone | ⟨before, line, after, value, hsplit, hbefore, hgives⟩
  · exact .inl ⟨_, hlines, hnone⟩
  · exact .inr ⟨value, before, line, after, hsplit ▸ hlines, hbefore, hgives⟩

/-- **There is a CPU time** exactly if the first line with its key has a number
of 64 bits behind the key. -/
theorem parseCpuTime_eq_ok :
    parseCpuTime content = .ok n ↔ ∃ value, FirstGives content value ∧ IsNumeral value n.toNat := by
  constructor
  · intro h
    rcases lacks_or_gives content with hlacks | ⟨value, hgives⟩
    · rw [parse_of_lacksTime hlacks] at h
      cases h
    · rw [parse_of_firstGives hgives] at h
      exact ⟨value, hgives, timeOf_eq_ok.mp h⟩
  · rintro ⟨value, hgives, hnumeral⟩
    rw [parse_of_firstGives hgives]
    exact timeOf_eq_ok.mpr hnumeral

/-- **Otherwise the fault** names the word behind the key, or says that no line
has the key. -/
theorem parseCpuTime_eq_error {fault : SourceFault} :
    parseCpuTime content = .error fault ↔
      (∃ value, FirstGives content value ∧ (∀ n : UInt64, ¬ IsNumeral value n.toNat) ∧
        fault = .parse "cpu.stat usage_usec" (String.ofList value)) ∨
      LacksTime content ∧ fault = .parse "cpu.stat" "missing usage_usec" := by
  constructor
  · intro h
    rcases lacks_or_gives content with hlacks | ⟨value, hgives⟩
    · rw [parse_of_lacksTime hlacks, Except.error.injEq] at h
      exact .inr ⟨hlacks, h.symm⟩
    · rw [parse_of_firstGives hgives] at h
      exact .inl ⟨value, hgives, timeOf_eq_error.mp h⟩
  · rintro (⟨value, hgives, hnone⟩ | ⟨hlacks, rfl⟩)
    · rw [parse_of_firstGives hgives]
      exact timeOf_eq_error.mpr hnone
    · exact parse_of_lacksTime hlacks

end Content

/-! ### Lines and their ends -/

/-- What ends a line: a newline, or a carriage return and a newline. -/
inductive Ending where
  | newline
  | carriageReturn
deriving Repr, DecidableEq

/-- The characters of an end in front of the newline. -/
def Ending.lead : Ending → List Char
  | .newline => []
  | .carriageReturn => ['\r']

/-- A line of a text with its end. -/
structure Line where
  text : List Char
  ending : Ending
  single : '\n' ∉ text

/-- A text of lines with their ends, and one behind them that has none. -/
structure Page where
  ended : List Line
  last : List Char
  single : '\n' ∉ last

/-- A line up to its newline. -/
def Line.body (l : Line) : List Char := l.text ++ l.ending.lead

/-- The text of lines with their ends. -/
def written (ls : List Line) : List Char := ls.flatMap fun l => l.body ++ ['\n']

def Page.content (p : Page) : String := String.ofList (written p.ended ++ p.last)

/-- The lines of a page, without their ends. -/
def Page.texts (p : Page) : List (List Char) := p.ended.map Line.text ++ [p.last]

/-- The lines that have the key, in order. -/
def Page.keyed (p : Page) : List (List Char) := p.texts.filter HasTime

theorem Line.words_body (l : Line) : words l.body = words l.text := by
  have hgap : IsGap l.ending.lead := by cases l.ending <;> simp [IsGap, Ending.lead, isBlank]
  exact wordsFrom_append_gap hgap l.text []

theorem lines_of_not_mem {cs : List Char} (h : '\n' ∉ cs) : lines cs = [cs] := by
  rw [lines_eq_splitOn, List.splitOn_eq_singleton h]

theorem written_cons (l : Line) (ls : List Line) (cs : List Char) :
    written (l :: ls) ++ cs = l.body ++ '\n' :: (written ls ++ cs) := by
  simp [written]

theorem lines_written (cs : List Char) : ∀ ls : List Line,
    lines (written ls ++ cs) = ls.map Line.body ++ lines cs
  | [] => rfl
  | l :: ls => by
    have hbody : '\n' ∉ l.body := by
      have hlead : '\n' ∉ l.ending.lead := by cases l.ending <;> simp [Ending.lead]
      simp [Line.body, l.single, hlead]
    rw [written_cons, lines_append_newline, lines_of_not_mem hbody, lines_written cs ls]
    rfl

/-- The time depends on the words of the lines alone. -/
theorem cpuTimeIn_congr : ∀ {ls ls' : List (List Char)}, ls.map words = ls'.map words →
    cpuTimeIn ls = cpuTimeIn ls'
  | [], [], _ => rfl
  | [], _ :: _, h => by simp at h
  | _ :: _, [], h => by simp at h
  | line :: ls, line' :: ls', h => by
    obtain ⟨hline, hls⟩ := List.cons.inj h
    unfold cpuTimeIn
    rw [hline, cpuTimeIn_congr hls]

theorem Page.parse_content (p : Page) : parseCpuTime p.content = cpuTimeIn p.texts := by
  have hwords : (p.ended.map Line.body).map words = (p.ended.map Line.text).map words := by
    simp [Line.words_body]
  rw [parseCpuTime, Page.content, String.toList_ofList, lines_written, lines_of_not_mem p.single]
  apply cpuTimeIn_congr
  rw [Page.texts, List.map_append, List.map_append, hwords]

/-- Every text is one of lines with their ends. -/
theorem exists_page (content : String) : ∃ p : Page, p.content = content := by
  suffices h : ∀ cs : List Char, ∃ p : Page, written p.ended ++ p.last = cs by
    obtain ⟨p, hp⟩ := h content.toList
    exact ⟨p, by rw [Page.content, hp, String.ofList_toList]⟩
  intro cs
  induction cs with
  | nil => exact ⟨⟨[], [], by simp⟩, rfl⟩
  | cons c cs ih =>
    obtain ⟨⟨ended, last, hlast⟩, rfl⟩ := ih
    by_cases hc : c = '\n'
    · exact ⟨⟨⟨[], .newline, by simp⟩ :: ended, last, hlast⟩, by rw [hc, written_cons]; rfl⟩
    · cases ended with
      | nil => exact ⟨⟨[], c :: last, by simp [Ne.symm hc, hlast]⟩, rfl⟩
      | cons l ls =>
        have hsingle : '\n' ∉ c :: l.text := by simp [Ne.symm hc, l.single]
        exact ⟨⟨⟨c :: l.text, l.ending, hsingle⟩ :: ls, last, hlast⟩, by
          rw [written_cons, written_cons]; rfl⟩

/-- **Other lines do not count**: whatever lines without the key are put in or
left out, and however the lines end, the outcome is the same. -/
theorem parseCpuTime_congr {p q : Page} (h : p.keyed = q.keyed) :
    parseCpuTime p.content = parseCpuTime q.content := by
  rw [p.parse_content, q.parse_content, cpuTimeIn_filter p.texts, cpuTimeIn_filter q.texts]
  exact congrArg cpuTimeIn h

/-! ### Blocks of statistics -/

/-- A figure of a group under its key. -/
structure Statistic where
  key : List Char
  value : UInt64
  ending : Ending
  isToken : IsToken key

/-- The digits of the figure. -/
def Statistic.digits (s : Statistic) : List Char := Decimal.ofNat s.value.toNat

theorem Statistic.isToken_digits (s : Statistic) : IsToken s.digits :=
  ⟨Nat.toDigits_ne_nil, fun _ hc => Time.isBlank_of_isDigit (Decimal.isDigit_ofNat _ _ hc)⟩

theorem IsToken.noNewline {word : List Char} (h : IsToken word) : '\n' ∉ word := fun hmem => by
  have := h.solid _ hmem
  contradiction

/-- The line of a figure: its key, a space and its digits. -/
def Statistic.line (s : Statistic) : Line where
  text := s.key ++ ' ' :: s.digits
  ending := s.ending
  single := by simp [IsToken.noNewline s.isToken, IsToken.noNewline s.isToken_digits]

/-- The text of figures, one in a line. -/
def block (ss : List Statistic) : Page := ⟨ss.map Statistic.line, [], by simp⟩

theorem isToken_cpuTimeKey : IsToken cpuTimeKey := by
  have hkey : cpuTimeKey = ['u', 's', 'a', 'g', 'e', '_', 'u', 's', 'e', 'c'] := rfl
  rw [hkey]
  exact ⟨List.cons_ne_nil _ _, by simp [isBlank]⟩

/-- The CPU time as one of the figures. -/
def cpuTime (n : UInt64) (ending : Ending) : Statistic where
  key := cpuTimeKey
  value := n
  ending := ending
  isToken := isToken_cpuTimeKey

theorem Statistic.opens_key (s : Statistic) : Opens s.line.text s.key (' ' :: s.digits) :=
  ⟨s.isToken, by simp [isBlank], [], by simp [IsGap], rfl⟩

theorem Statistic.opens_digits (s : Statistic) : Opens (' ' :: s.digits) s.digits [] :=
  ⟨s.isToken_digits, by simp, [' '], by simp [IsGap, isBlank], by simp⟩

theorem Statistic.hasTime_iff (s : Statistic) : HasTime s.line.text ↔ s.key = cpuTimeKey := by
  rw [Cgroup.hasTime_iff, words_of_opens s.opens_key, List.head?_cons, Option.some.injEq]

/-- **A block of statistics** is read back: its CPU time is that of the first
figure with the key. -/
theorem parseCpuTime_block {before : List Statistic} (h : ∀ s ∈ before, s.key ≠ cpuTimeKey)
    (n : UInt64) (ending : Ending) (after : List Statistic) :
    parseCpuTime (block (before ++ cpuTime n ending :: after)).content = .ok n := by
  have hgives : Gives (cpuTime n ending).line.text (cpuTime n ending).digits :=
    ⟨_, (cpuTime n ending).opens_key, .inl ⟨_, (cpuTime n ending).opens_digits⟩⟩
  have hbefore : ∀ l ∈ before.map fun s => s.line.text, ¬ HasTime l := by
    simpa [Statistic.hasTime_iff] using h
  have htexts : (block (before ++ cpuTime n ending :: after)).texts =
      (before.map fun s => s.line.text) ++ (cpuTime n ending).line.text ::
        ((after.map fun s => s.line.text) ++ [[]]) := by
    simp [block, Page.texts, Function.comp_def]
  have hnumeral : IsNumeral (cpuTime n ending).digits n.toNat :=
    ⟨Decimal.ofNat n.toNat, .inl rfl, Nat.toDigits_ne_nil, Decimal.isDigit_ofNat n.toNat,
      Decimal.value_ofNat n.toNat⟩
  rw [Page.parse_content, htexts, cpuTimeIn_first hbefore hgives]
  exact timeOf_eq_ok.mpr hnumeral

/-- **The CPU time of a text** is the number behind the key in the first line
with the key. Without such a number the fault names the word that stands there,
or says that the key is missing. Lines without the key count nowhere, however
they end, and any block of statistics is read back. -/
theorem parseCpuTime_reads_first :
    (∀ (content : String) (n : UInt64), parseCpuTime content = .ok n ↔
      ∃ value, FirstGives content value ∧ IsNumeral value n.toNat) ∧
    (∀ (content : String) (fault : SourceFault), parseCpuTime content = .error fault ↔
      (∃ value, FirstGives content value ∧ (∀ n : UInt64, ¬ IsNumeral value n.toNat) ∧
        fault = .parse "cpu.stat usage_usec" (String.ofList value)) ∨
      LacksTime content ∧ fault = .parse "cpu.stat" "missing usage_usec") ∧
    (∀ content : String, ∃ p : Page, p.content = content) ∧
    (∀ p q : Page, p.keyed = q.keyed → parseCpuTime p.content = parseCpuTime q.content) ∧
    ∀ before : List Statistic, (∀ s ∈ before, s.key ≠ cpuTimeKey) →
      ∀ (n : UInt64) (ending : Ending) (after : List Statistic),
        parseCpuTime (block (before ++ cpuTime n ending :: after)).content = .ok n :=
  ⟨fun _ _ => parseCpuTime_eq_ok, fun _ _ => parseCpuTime_eq_error, exists_page,
    fun _ _ => parseCpuTime_congr, fun _ => parseCpuTime_block⟩

/-- The time of the processes of a group, in front of its CPU time. -/
def userTime : Statistic where
  key := "user_usec".toList
  value := 100000
  ending := .newline
  isToken := ⟨by simp, by simp [isBlank]⟩

/-- The greatest time behind another figure, and a number that stands alone in
between a line that is empty and one that ends in a carriage return. -/
theorem parseCpuTime_behind_userTime :
    ((∀ s ∈ [userTime], s.key ≠ cpuTimeKey) ∧
      parseCpuTime (block ([userTime] ++ cpuTime 0xFFFFFFFFFFFFFFFF .carriageReturn :: [])).content =
        .ok 0xFFFFFFFFFFFFFFFF) ∧
    (block [userTime, cpuTime 5 .carriageReturn, userTime]).keyed =
      (block [cpuTime 5 .newline]).keyed ∧
    parseCpuTime (block [userTime, cpuTime 5 .carriageReturn, userTime]).content =
      parseCpuTime (block [cpuTime 5 .newline]).content := by
  obtain ⟨-, -, -, hcongr, hblock⟩ := parseCpuTime_reads_first
  have hother : ∀ s ∈ [userTime], s.key ≠ cpuTimeKey := by decide
  have hkeyed : (block [userTime, cpuTime 5 .carriageReturn, userTime]).keyed =
      (block [cpuTime 5 .newline]).keyed := by decide
  exact ⟨⟨hother, hblock _ hother _ _ _⟩, hkeyed, hcongr _ _ hkeyed⟩

end Cgroup

end QuotaWatch
