/-
This file proves that `find_contiguous_free_pages` is first fit, and settles when
its result tells success from failure.

The function passes over the pages once with the length and the start of the
current run of free ones. It returns the index where the first run of the length
asked for starts, and 0 when there is none. The index can be 0 too, so two states
give the same answer although one has the pages and the other has not: the run
starts at page 0 in the one, and there is no run in the other.
-/

import M12.Library.RunSearch
import M12.Usable

namespace M12

open ByteMemory

/-! ### The search -/

/-- The loop of `find_contiguous_free_pages` from page `i` with `remaining` pages to go. -/
def searchContiguous (s : MemoryState) (count : Nat) (i consecutiveFree startPage : Nat) :
    Nat → BitVec 64
  | 0 => 0#64
  | remaining + 1 =>
    if pageFree s i then
      let startPage := if consecutiveFree = 0 then i else startPage
      let consecutiveFree := consecutiveFree + 1
      if consecutiveFree ≥ count then BitVec.ofNat 64 startPage
      else searchContiguous s count (i + 1) consecutiveFree startPage remaining
    else searchContiguous s count (i + 1) 0 startPage remaining

/-- `find_contiguous_free_pages`: the state it leaves, and what it returns. -/
def findContiguousFreePages (s : MemoryState) (count : BitVec 64) : MemoryState × BitVec 64 :=
  if s.memoryMap = 0#64 ∨ count = 0#64 ∨ count > s.totalPages then (s, 0#64)
  else (s, searchContiguous s count.toNat 0 0 0 s.totalPages.toNat)

/-- The `count` pages from `first` on exist and are free. -/
def FreeRun (s : MemoryState) (count first : Nat) : Prop :=
  ∀ i, first ≤ i → i < first + count → i < s.totalPages.toNat ∧ pageFree s i = true

/-- The code's loop is the pass for a run. -/
theorem searchContiguous_eq (s : MemoryState) (count i consecutiveFree startPage remaining : Nat) :
    searchContiguous s count i consecutiveFree startPage remaining =
      match RunSearch.search (fun i => pageFree s i = true) count remaining i consecutiveFree
        startPage with
      | some first => BitVec.ofNat 64 first
      | none => 0#64 := by
  induction remaining generalizing i consecutiveFree startPage with
  | zero => rfl
  | succ remaining inductionHypothesis =>
    rw [searchContiguous, RunSearch.search]
    by_cases free : pageFree s i = true
    · rw [if_pos free, if_pos free]
      by_cases long : consecutiveFree + 1 ≥ count
      · simp only [if_pos long]
      · simp only [if_neg long]
        exact inductionHypothesis (i + 1) (consecutiveFree + 1) _
    · rw [if_neg free, if_neg free]
      exact inductionHypothesis (i + 1) 0 startPage

/-- A run of free pages ends within the pages. -/
theorem FreeRun.le_total {s : MemoryState} {count first : Nat} (positive : 0 < count)
    (run : FreeRun s count first) : first + count ≤ s.totalPages.toNat := by
  have last := (run (first + count - 1) (by omega) (by omega)).1
  omega

/-- The start of a run is a page number, which the result can hold. -/
theorem FreeRun.toNat_ofNat {s : MemoryState} (managed : Managed s) {count first : Nat}
    (positive : 0 < count) (run : FreeRun s count first) :
    (BitVec.ofNat 64 first).toNat = first := by
  have fits := run.le_total positive
  have few := totalPages_lt managed
  rw [BitVec.toNat_ofNat, Nat.mod_eq_of_lt (by omega)]

/-- The function returns the start of the lowest run, or 0 when there is none. -/
theorem findContiguousFreePages_cases {s : MemoryState} (managed : Managed s) {count : BitVec 64}
    (positive : 0 < count.toNat) :
    (∃ first, IsLeast {first | FreeRun s count.toNat first} first ∧
        findContiguousFreePages s count = (s, BitVec.ofNat 64 first)) ∨
      ((∀ first, ¬ FreeRun s count.toNat first) ∧
        findContiguousFreePages s count = (s, 0#64)) := by
  have started : s.memoryMap ≠ 0#64 := by
    rw [managed.memoryMap]
    decide
  have asked : count ≠ 0#64 := by
    rintro rfl
    exact absurd positive (by decide)
  rw [findContiguousFreePages]
  by_cases tooMany : count > s.totalPages
  · refine Or.inr ⟨fun first run => ?_, if_pos (Or.inr (Or.inr tooMany))⟩
    have fits := run.le_total positive
    rw [gt_iff_lt, BitVec.lt_def] at tooMany
    omega
  · have accepted : ¬ (s.memoryMap = 0#64 ∨ count = 0#64 ∨ count > s.totalPages) := by
      rintro (unset | none | many)
      · exact started unset
      · exact asked none
      · exact tooMany many
    rw [if_neg accepted, searchContiguous_eq]
    rcases RunSearch.search_spec (@RunSearch.passed_start (fun i => pageFree s i = true)
      s.totalPages.toNat count.toNat positive) (Nat.zero_add s.totalPages.toNat) with
      ⟨first, result, least⟩ | ⟨result, none⟩
    · exact Or.inl ⟨first, least, by rw [result]⟩
    · exact Or.inr ⟨none, by rw [result]⟩

/-- In every reachable state the function finds the lowest run of free pages if there is one, and
it leaves the state alone. -/
theorem findContiguousFreePages_first_fit (ram : Memory) (calls : List MemoryCall)
    (count : BitVec 64) :
    (1 ≤ count.toNat →
      (∃ first, FreeRun (memoryRun (initMemory (bootMemory ram)) calls) count.toNat first) →
      IsLeast {first | FreeRun (memoryRun (initMemory (bootMemory ram)) calls) count.toNat first}
        (findContiguousFreePages (memoryRun (initMemory (bootMemory ram)) calls)
          count).2.toNat) ∧
    (findContiguousFreePages (memoryRun (initMemory (bootMemory ram)) calls) count).1 =
      memoryRun (initMemory (bootMemory ram)) calls := by
  have managed := managed_memoryRun (managed_initMemory ram) calls
  constructor
  · rintro positive ⟨other, run⟩
    rcases findContiguousFreePages_cases managed positive with ⟨first, least, result⟩ | ⟨none, -⟩
    · have start : FreeRun (memoryRun (initMemory (bootMemory ram)) calls) count.toNat first :=
        least.1
      rw [result, start.toNat_ofNat managed positive]
      exact least
    · exact absurd run (none other)
  · rw [findContiguousFreePages]
    split_ifs <;> rfl

/-- With an interval of free pages, the runs are the parts of it. -/
theorem freeRun_iff_of_interval {s : MemoryState} {low high count first : Nat}
    (free : (pool s).free = Finset.Ico low high) (positive : 0 < count) :
    FreeRun s count first ↔ low ≤ first ∧ first + count ≤ high := by
  have member : ∀ i, (i < s.totalPages.toNat ∧ pageFree s i = true) ↔ low ≤ i ∧ i < high := by
    intro i
    rw [← mem_free, free, Finset.mem_Ico]
  constructor
  · intro run
    have start := (member first).mp (run first (Nat.le_refl first) (by omega))
    have last := (member (first + count - 1)).mp (run (first + count - 1) (by omega) (by omega))
    omega
  · rintro ⟨above, below⟩ i atLeast before
    exact (member i).mpr ⟨by omega, by omega⟩

/-- Four pages of memory. -/
def fourPages : MemoryState := initMemory (bootMemory (oneEntryTable 0x100000#64 0x4000#64))

/-- The pages that are left when the first ones have been handed out. -/
theorem free_fourPages {calls : List MemoryCall} {taken : Nat}
    (takes : calls = List.replicate taken .get) (few : taken ≤ 4) :
    (pool (memoryRun fourPages calls)).free = Finset.Ico taken 4 := by
  have free := free_initMemory (oneEntryTable 0x100000#64 0x4000#64)
  rw [show detectedEnd (oneEntryTable 0x100000#64 0x4000#64) = 0x104000 by decide +kernel] at free
  have interval : (pool fourPages).free = Finset.Ico 0 4 := free
  have left := free_replicate_get (managed_initMemory _) interval (by omega : 0 + taken ≤ 4)
  rwa [Nat.zero_add, ← takes] at left

theorem freeRun_fourPages {calls : List MemoryCall} {taken first : Nat}
    (takes : calls = List.replicate taken .get) (few : taken ≤ 4) :
    FreeRun (memoryRun fourPages calls) (2#64).toNat first ↔ taken ≤ first ∧ first + 2 ≤ 4 :=
  freeRun_iff_of_interval (free_fourPages takes few) (by decide)

/-- With the first of four pages handed out, two pages are found from the second on. -/
theorem findContiguousFreePages_first_fit_second :
    IsLeast {first | FreeRun (memoryRun fourPages [.get]) (2#64).toNat first}
        (findContiguousFreePages (memoryRun fourPages [.get]) 2#64).2.toNat ∧
      (findContiguousFreePages (memoryRun fourPages [.get]) 2#64).2.toNat = 1 := by
  have runs : ∀ first, FreeRun (memoryRun fourPages [.get]) (2#64).toNat first ↔
      1 ≤ first ∧ first + 2 ≤ 4 := fun _ => freeRun_fourPages rfl (by decide)
  have least : IsLeast {first | FreeRun (memoryRun fourPages [.get]) (2#64).toNat first} 1 :=
    ⟨(runs 1).mpr (by decide), fun first run => ((runs first).mp run).1⟩
  have found : IsLeast {first | FreeRun (memoryRun fourPages [.get]) (2#64).toNat first}
      (findContiguousFreePages (memoryRun fourPages [.get]) 2#64).2.toNat :=
    (findContiguousFreePages_first_fit _ [.get] 2#64).1 (by decide) ⟨1, least.1⟩
  exact ⟨found, found.unique least⟩

/-! ### Success and failure -/

/-- The two states give different answers when a run exists in one of them only. -/
def TellsFailure (s t : MemoryState) (count : BitVec 64) : Prop :=
  (findContiguousFreePages s count).2 = (findContiguousFreePages t count).2 →
    ((∃ first, FreeRun s count.toNat first) ↔ ∃ first, FreeRun t count.toNat first)

/-- The first state has its run at page 0, and the second has none. -/
def Collides (s t : MemoryState) (count : BitVec 64) : Prop :=
  FreeRun s count.toNat 0 ∧ ∀ first, ¬ FreeRun t count.toNat first

/-- A run that is found is told from failure when it does not start at page 0. -/
theorem ofNat_eq_zero_iff {s : MemoryState} (managed : Managed s) {count first : Nat}
    (positive : 0 < count) (least : IsLeast {first | FreeRun s count first} first) :
    BitVec.ofNat 64 first = 0#64 ↔ FreeRun s count 0 := by
  have start : FreeRun s count first := least.1
  constructor
  · intro zero
    have number := congrArg BitVec.toNat zero
    rw [start.toNat_ofNat managed positive, BitVec.toNat_ofNat, Nat.zero_mod] at number
    exact number ▸ start
  · intro atZero
    rw [Nat.le_zero.mp (least.2 atZero)]

theorem tellsFailure_iff {s t : MemoryState} (managed : Managed s) (managedT : Managed t)
    {count : BitVec 64} (positive : 0 < count.toNat) :
    TellsFailure s t count ↔ ¬ Collides s t count ∧ ¬ Collides t s count := by
  rw [TellsFailure, Collides, Collides]
  rcases findContiguousFreePages_cases managed positive with ⟨first, least, result⟩ | ⟨none, result⟩
  · have run : FreeRun s count.toNat first := least.1
    rcases findContiguousFreePages_cases managedT positive with
      ⟨other, leastT, resultT⟩ | ⟨noneT, resultT⟩
    · have runT : FreeRun t count.toNat other := leastT.1
      exact iff_of_true (fun _ => iff_of_true ⟨first, run⟩ ⟨other, runT⟩)
        ⟨fun both => both.2 other runT, fun both => both.2 first run⟩
    · rw [result, resultT, ofNat_eq_zero_iff managed positive least]
      constructor
      · intro told
        refine ⟨fun both => ?_, fun both => both.2 first run⟩
        obtain ⟨missing, runT⟩ := (told both.1).mp ⟨first, run⟩
        exact noneT missing runT
      · rintro ⟨apart, -⟩ atZero
        exact absurd ⟨atZero, noneT⟩ apart
  · rcases findContiguousFreePages_cases managedT positive with
      ⟨other, leastT, resultT⟩ | ⟨noneT, resultT⟩
    · have runT : FreeRun t count.toNat other := leastT.1
      rw [result, resultT, eq_comm, ofNat_eq_zero_iff managedT positive leastT]
      constructor
      · intro told
        refine ⟨fun both => both.2 other runT, fun both => ?_⟩
        obtain ⟨missing, run⟩ := (told both.1).mpr ⟨other, runT⟩
        exact none missing run
      · rintro ⟨-, apart⟩ atZero
        exact absurd ⟨atZero, none⟩ apart
    · refine iff_of_true (fun _ => iff_of_false ?_ ?_)
        ⟨fun both => none 0 both.1, fun both => noneT 0 both.1⟩
      · rintro ⟨first, run⟩
        exact none first run
      · rintro ⟨first, run⟩
        exact noneT first run

/-- Two reachable states tell success from failure exactly when it is not the case that one has its
first pages free while the other has no run. -/
theorem findContiguousFreePages_tells_failure_iff (ram otherRam : Memory)
    (calls otherCalls : List MemoryCall) (count : BitVec 64) (positive : 1 ≤ count.toNat) :
    TellsFailure (memoryRun (initMemory (bootMemory ram)) calls)
        (memoryRun (initMemory (bootMemory otherRam)) otherCalls) count ↔
      ¬ Collides (memoryRun (initMemory (bootMemory ram)) calls)
          (memoryRun (initMemory (bootMemory otherRam)) otherCalls) count ∧
        ¬ Collides (memoryRun (initMemory (bootMemory otherRam)) otherCalls)
          (memoryRun (initMemory (bootMemory ram)) calls) count :=
  tellsFailure_iff (managed_memoryRun (managed_initMemory ram) calls)
    (managed_memoryRun (managed_initMemory otherRam) otherCalls) positive

/-- With three of four pages handed out two pages are missing, and with one of them handed out
they are not: the answers differ. -/
theorem findContiguousFreePages_tells_failure_taken :
    TellsFailure (memoryRun fourPages [.get]) (memoryRun fourPages [.get, .get, .get]) 2#64 ∧
      (∃ first, FreeRun (memoryRun fourPages [.get]) (2#64).toNat first) ∧
      ∀ first, ¬ FreeRun (memoryRun fourPages [.get, .get, .get]) (2#64).toNat first := by
  have runs : ∀ first, FreeRun (memoryRun fourPages [.get]) (2#64).toNat first ↔
      1 ≤ first ∧ first + 2 ≤ 4 := fun _ => freeRun_fourPages rfl (by decide)
  have none : ∀ first, ¬ FreeRun (memoryRun fourPages [.get, .get, .get]) (2#64).toNat first := by
    intro first run
    have inside : 3 ≤ first ∧ first + 2 ≤ 4 := (freeRun_fourPages rfl (by decide)).mp run
    omega
  have apart : ¬ Collides (memoryRun fourPages [.get]) (memoryRun fourPages [.get, .get, .get])
        2#64 ∧
      ¬ Collides (memoryRun fourPages [.get, .get, .get]) (memoryRun fourPages [.get]) 2#64 :=
    ⟨fun both => absurd ((runs 0).mp both.1).1 (by decide), fun both => none 0 both.1⟩
  exact ⟨(findContiguousFreePages_tells_failure_iff _ _ [.get] [.get, .get, .get] 2#64
    (by decide)).mpr apart, ⟨1, (runs 1).mpr (by decide)⟩, none⟩

/-- One page of memory. -/
def onePage : MemoryState := initMemory (bootMemory (oneEntryTable 0x100000#64 0x1000#64))

theorem free_onePage : (pool onePage).free = Finset.Ico 0 1 := by
  have free := free_initMemory (oneEntryTable 0x100000#64 0x1000#64)
  rw [show detectedEnd (oneEntryTable 0x100000#64 0x1000#64) = 0x101000 by decide +kernel] at free
  exact free

/-- Page 0 free and no page free give the same answer. -/
theorem findContiguousFreePages_same_answer :
    (memoryRun onePage []).totalPages = (memoryRun onePage [.get]).totalPages ∧
      1 ≤ (memoryRun onePage []).totalPages.toNat ∧
      ¬ TellsFailure (memoryRun onePage []) (memoryRun onePage [.get]) 1#64 := by
  have managed : Managed onePage := managed_initMemory (oneEntryTable 0x100000#64 0x1000#64)
  have managedAfter := managed_memoryRun managed [.get]
  have free := free_onePage
  generalize onePage = s at managed managedAfter free ⊢
  have after := free_replicate_get managed free (by decide : 0 + 1 ≤ 1)
  have run : FreeRun s (1#64).toNat 0 :=
    (freeRun_iff_of_interval free (by decide)).mpr (by decide)
  refine ⟨((memoryRun_range managed [.get]).1).symm,
    Nat.lt_of_le_of_lt (Nat.zero_le 0) (run 0 (Nat.le_refl 0) (by decide)).1, fun told => ?_⟩
  have apart := ((tellsFailure_iff managed managedAfter (by decide)).mp told).1
  refine apart ⟨run, fun first runAfter => ?_⟩
  have inside := (freeRun_iff_of_interval after (by decide)).mp runAfter
  rw [show (1#64).toNat = 1 from rfl] at inside
  omega

end M12
