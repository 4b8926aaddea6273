/-
This file settles which ranges `mark_memory_range_used` reserves whole.

Both ends of the range are clamped to the managed memory and rounded down to a
page. For the start that is right: its page is the first with a byte of the range.
For the end it is not: when the range ends inside a page, that page is left out,
although it has bytes of the range. The counter follows the bits in any case, and
a second call with the same range finds nothing left to do.
-/

import M12.FreePages

namespace M12

open ByteMemory

/-! ### The allocator's account -/

/-- The pages lie in the managed range, and `used_pages` is the number of those in use. -/
structure PagesCounted (s : MemoryState) : Prop where
  memoryStart : s.memoryStart = 0x100000#64
  totalPages : s.totalPages.toNat ≤ (s.memoryEnd.toNat - 0x100000) / 4096
  usedPages : s.usedPages.toNat =
    ((Finset.range s.totalPages.toNat).filter fun i => pageFree s i = false).card

theorem Managed.pagesCounted {s : MemoryState} (managed : Managed s) : PagesCounted s :=
  ⟨managed.memoryStart, managed.totalPages.le, by rw [managed.usedPages, used_eq_clear]⟩

/-- A byte of the range `[start, stop)` lies in the page. -/
def Touches (start stop : BitVec 64) (i : Nat) : Prop :=
  ∃ x, start.toNat ≤ x ∧ x < stop.toNat ∧ 0x100000 + 4096 * i ≤ x ∧ x < 0x100000 + 4096 * i + 4096

/-- After the call the pages in use are those from before and those with a byte of the range, the
counter is their number, and a second call changes nothing. -/
structure ReservesRange (s : MemoryState) (start stop : BitVec 64) : Prop where
  marked : ∀ i < s.totalPages.toNat, pageFree (markMemoryRangeUsed s start stop) i = false ↔
    pageFree s i = false ∨ Touches start stop i
  accounted : PagesCounted (markMemoryRangeUsed s start stop)
  again : markMemoryRangeUsed (markMemoryRangeUsed s start stop) start stop =
    markMemoryRangeUsed s start stop

/-! ### One page -/

section Page

variable {s : MemoryState} (accounted : PagesCounted s)
include accounted

theorem totalPages_lt_of_counted : s.totalPages.toNat < 2 ^ 52 := by
  have total := accounted.totalPages
  have bound := s.memoryEnd.isLt
  omega

theorem pageFree_markPageUsed {i j : Nat} (inside : i < s.totalPages.toNat)
    (insideJ : j < s.totalPages.toNat) :
    pageFree (markPageUsed s i) j = (decide (j ≠ i) && pageFree s j) := by
  have few := totalPages_lt_of_counted accounted
  rw [markPageUsed]
  by_cases free : pageFree s i = true
  · rw [if_pos free]
    exact Bitmap.test_clear s.ram s.memoryMap (by omega) (by omega)
  · rw [if_neg free]
    by_cases same : j = i
    · rw [same, Bool.not_eq_true] at *
      rw [free, Bool.and_false]
    · rw [decide_eq_true same, Bool.true_and]

/-- Marking a page takes it into account. -/
theorem pagesCounted_markPageUsed {i : Nat} (inside : i < s.totalPages.toNat) :
    PagesCounted (markPageUsed s i) := by
  have few := totalPages_lt_of_counted accounted
  have pages := @pageFree_markPageUsed s accounted i
  rw [markPageUsed] at pages ⊢
  by_cases free : pageFree s i = true
  · rw [if_pos free] at pages ⊢
    refine ⟨accounted.memoryStart, accounted.totalPages, ?_⟩
    have inserted : (Finset.range s.totalPages.toNat).filter (fun j => pageFree
        { s with ram := Bitmap.clear s.ram s.memoryMap i, usedPages := s.usedPages + 1#64 } j =
          false) =
        insert i ((Finset.range s.totalPages.toNat).filter fun j => pageFree s j = false) := by
      ext j
      rw [Finset.mem_insert, Finset.mem_filter, Finset.mem_filter, Finset.mem_range]
      constructor
      · rintro ⟨insideJ, clear⟩
        rw [pages inside insideJ, Bool.and_eq_false_iff, decide_eq_false_iff_not, not_not] at clear
        exact clear.imp id fun clear => ⟨insideJ, clear⟩
      · intro either
        have insideJ : j < s.totalPages.toNat := either.elim (fun same => same ▸ inside) And.left
        refine ⟨insideJ, ?_⟩
        rw [pages inside insideJ, Bool.and_eq_false_iff, decide_eq_false_iff_not, not_not]
        exact either.imp id And.right
    have fresh : i ∉ (Finset.range s.totalPages.toNat).filter fun j => pageFree s j = false := by
      rw [Finset.mem_filter, free]
      exact fun both => Bool.noConfusion both.2
    have most := Finset.card_filter_le (Finset.range s.totalPages.toNat)
      fun j => pageFree s j = false
    rw [Finset.card_range] at most
    have count := accounted.usedPages
    show (s.usedPages + 1#64).toNat = _
    rw [inserted, Finset.card_insert_of_notMem fresh, BitVec.toNat_add, BitVec.toNat_ofNat]
    omega
  · rw [if_neg free]
    exact accounted

end Page

/-! ### A run of pages -/

/-- The state with the pages from `low` up to `high` marked. -/
structure Marked (s after : MemoryState) (low high : Nat) : Prop where
  accounted : PagesCounted after
  totalPages : after.totalPages = s.totalPages
  memoryEnd : after.memoryEnd = s.memoryEnd
  pages : ∀ j < s.totalPages.toNat,
    pageFree after j = false ↔ pageFree s j = false ∨ low ≤ j ∧ j < high

theorem markPageUsed_range (s : MemoryState) (i : Nat) :
    (markPageUsed s i).totalPages = s.totalPages ∧ (markPageUsed s i).memoryEnd = s.memoryEnd := by
  rw [markPageUsed]
  split_ifs <;> exact ⟨rfl, rfl⟩

theorem Marked.page {s after : MemoryState} {low high : Nat} (marked : Marked s after low high)
    (from_le : low ≤ high) (inside : high < s.totalPages.toNat) :
    Marked s (markPageUsed after high) low (high + 1) := by
  obtain ⟨total, ending⟩ := markPageUsed_range after high
  rw [← marked.totalPages] at inside
  refine ⟨pagesCounted_markPageUsed marked.accounted inside, total.trans marked.totalPages,
    ending.trans marked.memoryEnd, fun j insideJ => ?_⟩
  rw [pageFree_markPageUsed marked.accounted inside (marked.totalPages ▸ insideJ),
    Bool.and_eq_false_iff, decide_eq_false_iff_not, not_not, marked.pages j insideJ]
  constructor
  · rintro (rfl | used | ⟨above, below⟩)
    · exact Or.inr ⟨from_le, Nat.lt_succ_self j⟩
    · exact Or.inl used
    · exact Or.inr ⟨above, Nat.lt_succ_of_lt below⟩
  · rintro (used | ⟨above, below⟩)
    · exact Or.inr (Or.inl used)
    · rcases Nat.eq_or_lt_of_le (Nat.le_of_lt_succ below) with last | before
      · exact Or.inl last
      · exact Or.inr (Or.inr ⟨above, before⟩)

theorem marked_foldl {s : MemoryState} (accounted : PagesCounted s) (low count : Nat)
    (inside : low + count ≤ s.totalPages.toNat ∨ count = 0) :
    Marked s ((List.range' low count).foldl markPageUsed s) low (low + count) := by
  induction count with
  | zero =>
    refine ⟨accounted, rfl, rfl, fun j _ => ?_⟩
    exact (or_iff_left (by omega)).symm
  | succ count inductionHypothesis =>
    rw [List.range'_concat, List.foldl_append, List.foldl_cons, List.foldl_nil, Nat.one_mul]
    exact (inductionHypothesis (by omega)).page (Nat.le_add_right low count) (by omega)

/-- Pages in use are passed over. -/
theorem foldl_markPageUsed_used {s : MemoryState} {pages : List Nat}
    (used : ∀ i ∈ pages, pageFree s i = false) : pages.foldl markPageUsed s = s := by
  induction pages with
  | nil => rfl
  | cons i rest inductionHypothesis =>
    rw [List.forall_mem_cons] at used
    have passed : markPageUsed s i = s := by
      rw [markPageUsed, used.1, if_neg Bool.false_ne_true]
    rw [List.foldl_cons, passed]
    exact inductionHypothesis used.2

/-! ### The range -/

/-- Where the clamped range starts. -/
def clampedStart (start : BitVec 64) : Nat := max start.toNat 0x100000

/-- Where it ends. -/
def clampedStop (s : MemoryState) (stop : BitVec 64) : Nat := min stop.toNat s.memoryEnd.toNat

/-- `start_page`. -/
def startPage (start : BitVec 64) : Nat := (clampedStart start - 0x100000) / 4096

/-- `end_page`. -/
def endPage (s : MemoryState) (stop : BitVec 64) : Nat := (clampedStop s stop - 0x100000) / 4096

/-- The range ends inside a managed page that is free. -/
def CutShort (s : MemoryState) (start stop : BitVec 64) : Prop :=
  clampedStart start < clampedStop s stop ∧ (clampedStop s stop - 0x100000) % 4096 ≠ 0 ∧
    endPage s stop < s.totalPages.toNat ∧ pageFree s (endPage s stop) = true

theorem toNat_clampedStart (start : BitVec 64) :
    (if start < 0x100000#64 then 0x100000#64 else start).toNat = clampedStart start := by
  rw [clampedStart]
  split_ifs with low
  · rw [BitVec.lt_def] at low
    exact (Nat.max_eq_right (Nat.le_of_lt low)).symm
  · rw [BitVec.lt_def] at low
    exact (Nat.max_eq_left (Nat.le_of_not_lt low)).symm

theorem toNat_clampedStop (s : MemoryState) (stop : BitVec 64) :
    (if stop > s.memoryEnd then s.memoryEnd else stop).toNat = clampedStop s stop := by
  rw [clampedStop]
  split_ifs with high
  · rw [gt_iff_lt, BitVec.lt_def] at high
    exact (Nat.min_eq_right (Nat.le_of_lt high)).symm
  · rw [gt_iff_lt, BitVec.lt_def] at high
    exact (Nat.min_eq_left (Nat.le_of_not_lt high)).symm

section Range

variable {s : MemoryState} (accounted : PagesCounted s) (start stop : BitVec 64)
include accounted

/-- The call marks the pages from `start_page` up to `end_page` or `total_pages`; an empty range
has none. -/
theorem markMemoryRangeUsed_eq : markMemoryRangeUsed s start stop =
    (List.range' (startPage start)
      (min (endPage s stop) s.totalPages.toNat - startPage start)).foldl markPageUsed s := by
  have from_eq := toNat_clampedStart start
  have to_eq := toNat_clampedStop s stop
  rw [markMemoryRangeUsed, accounted.memoryStart]
  generalize (if start < 0x100000#64 then 0x100000#64 else start) = low at from_eq
  generalize (if stop > s.memoryEnd then s.memoryEnd else stop) = high at to_eq
  simp only
  by_cases empty : low ≥ high
  · rw [if_pos empty]
    rw [ge_iff_le, BitVec.le_def, from_eq, to_eq] at empty
    have below : endPage s stop ≤ startPage start :=
      Nat.div_le_div_right (Nat.sub_le_sub_right empty _)
    rw [Nat.sub_eq_zero_of_le ((Nat.min_le_left _ _).trans below)]
    rfl
  · rw [if_neg empty]
    rw [ge_iff_le, BitVec.le_def, from_eq, to_eq, Nat.not_le] at empty
    have above : 0x100000 ≤ clampedStart start := Nat.le_max_right ..
    rw [toNat_pageNumber (above.trans_eq from_eq.symm),
      toNat_pageNumber ((above.trans empty.le).trans_eq to_eq.symm), from_eq, to_eq]
    rfl

theorem marked_markMemoryRangeUsed : Marked s (markMemoryRangeUsed s start stop)
    (startPage start)
    (startPage start + (min (endPage s stop) s.totalPages.toNat - startPage start)) := by
  rw [markMemoryRangeUsed_eq accounted]
  exact marked_foldl accounted _ _ (by omega)

/-- A second call finds every page of the range in use. -/
theorem markMemoryRangeUsed_again :
    markMemoryRangeUsed (markMemoryRangeUsed s start stop) start stop =
      markMemoryRangeUsed s start stop := by
  have marked := marked_markMemoryRangeUsed accounted start stop
  generalize markMemoryRangeUsed s start stop = after at marked ⊢
  have same : endPage after stop = endPage s stop := by
    rw [endPage, endPage, clampedStop, clampedStop, marked.memoryEnd]
  rw [markMemoryRangeUsed_eq marked.accounted, same, marked.totalPages]
  refine foldl_markPageUsed_used fun i member => ?_
  rw [List.mem_range'_1] at member
  exact (marked.pages i (by omega)).mpr (Or.inr member)

/-- The pages with a byte of the range are those marked and the page the range ends inside. -/
theorem touches_iff {i : Nat} (inside : i < s.totalPages.toNat) : Touches start stop i ↔
    startPage start ≤ i ∧ i < endPage s stop ∨
      clampedStart start < clampedStop s stop ∧ (clampedStop s stop - 0x100000) % 4096 ≠ 0 ∧
        i = endPage s stop := by
  have total := accounted.totalPages
  rw [Touches, startPage, endPage, clampedStart, clampedStop]
  constructor
  · rintro ⟨x, low, high, above, below⟩
    omega
  · intro pages
    exact ⟨max start.toNat (0x100000 + 4096 * i), by omega, by omega, by omega, by omega⟩

/-- The page that is left out is the one the range ends inside. -/
theorem marked_iff_touches {i : Nat} (inside : i < s.totalPages.toNat)
    (whole : ¬ CutShort s start stop) :
    pageFree (markMemoryRangeUsed s start stop) i = false ↔
      pageFree s i = false ∨ Touches start stop i := by
  rw [(marked_markMemoryRangeUsed accounted start stop).pages i inside,
    touches_iff accounted start stop inside]
  constructor
  · rintro (used | ⟨above, below⟩)
    · exact Or.inl used
    · exact Or.inr (Or.inl ⟨above, by omega⟩)
  · rintro (used | ⟨above, below⟩ | ⟨nonempty, partly, last⟩)
    · exact Or.inl used
    · exact Or.inr ⟨above, by omega⟩
    · cases free : pageFree s i with
      | false => exact Or.inl rfl
      | true => exact absurd ⟨nonempty, partly, last ▸ inside, last ▸ free⟩ whole

/-- A free page that the range ends inside stays free. -/
theorem not_reservesRange_of_cutShort (cut : CutShort s start stop) :
    ¬ ReservesRange s start stop := by
  obtain ⟨nonempty, partly, inside, free⟩ := cut
  intro reserves
  have touched : Touches start stop (endPage s stop) :=
    (touches_iff accounted start stop inside).mpr (Or.inr ⟨nonempty, partly, rfl⟩)
  have used := (reserves.marked _ inside).mpr (Or.inr touched)
  rcases ((marked_markMemoryRangeUsed accounted start stop).pages _ inside).mp used with
    before | ⟨above, below⟩
  · rw [free] at before
    exact Bool.noConfusion before
  · omega

end Range

/-- A range is reserved whole exactly when it does not end inside a managed page that is free. -/
theorem markMemoryRangeUsed_reserves_iff (s : MemoryState) (accounted : PagesCounted s)
    (start stop : BitVec 64) : ReservesRange s start stop ↔ ¬ CutShort s start stop := by
  constructor
  · intro reserves cut
    exact not_reservesRange_of_cutShort accounted start stop cut reserves
  · intro whole
    exact ⟨fun i inside => marked_iff_touches accounted start stop inside whole,
      (marked_markMemoryRangeUsed accounted start stop).accounted,
      markMemoryRangeUsed_again accounted start stop⟩

/-- The end of the memory that is assumed without a map. -/
theorem memoryEnd_blank :
    (initMemory (bootMemory fun _ => 0#8)).memoryEnd.toNat = 0x20000000 := by
  rw [initMemory_eq, setUpBitmap_memoryEnd, detectedEnd_blank]
  rfl

/-- Two pages of the memory that is assumed without a map. -/
theorem markMemoryRangeUsed_reserves_two :
    ReservesRange (initMemory (bootMemory fun _ => 0#8)) 0x100000#64 0x102000#64 := by
  have managed := managed_initMemory fun _ => 0#8
  refine (markMemoryRangeUsed_reserves_iff _ managed.pagesCounted _ _).mpr fun cut => ?_
  have stop : clampedStop (initMemory (bootMemory fun _ => 0#8)) 0x102000#64 = 0x102000 := by
    rw [clampedStop, memoryEnd_blank]
    rfl
  have partly := cut.2.1
  rw [stop] at partly
  exact partly rfl

/-- The first byte of that memory: its page stays free. -/
theorem markMemoryRangeUsed_leaves_page :
    PagesCounted (initMemory (bootMemory fun _ => 0#8)) ∧
      ¬ ReservesRange (initMemory (bootMemory fun _ => 0#8)) 0x100000#64 0x100001#64 := by
  have managed := managed_initMemory fun _ => 0#8
  have free := free_initMemory fun _ => 0#8
  have ending := memoryEnd_blank
  rw [detectedEnd_blank] at free
  generalize initMemory (bootMemory fun _ => 0#8) = s at managed free ending ⊢
  have stop : clampedStop s 0x100001#64 = 0x100001 := by
    rw [clampedStop, ending]
    rfl
  have page : endPage s 0x100001#64 = 0 := by
    rw [endPage, stop]
  have first : (0 : Nat) ∈ (pool s).free := by
    rw [free, Finset.mem_range]
    decide
  obtain ⟨inside, freePage⟩ := (mem_free s 0).mp first
  refine ⟨managed.pagesCounted, not_reservesRange_of_cutShort managed.pagesCounted _ _ ?_⟩
  rw [CutShort, stop, page]
  exact ⟨by decide, by decide, inside, freePage⟩

end M12
