/-
This file proves that the physical page allocator is a pool of page indices.

`Managed` is the invariant: the static variables describe the range above 1 MB,
the bitmap at `0x60000` has a bit for each whole page of it, and `used_pages`
counts the clear ones. `Init_Memory` establishes it whatever the memory map
holds, and both calls preserve it. Under it each call has exactly two outcomes,
stated once in `getPhysicalPage_cases` and `freePhysicalPage_cases`; everything
later about the allocator is read off those two lemmas. Abstractly the calls are
the `take` and `give` of `IndexPool`.

The bitmap and the pages it manages share one memory, so the invariant has to
survive the page clears too. That rests on the 4 GB cap of the parser: the
bitmap stays below `0x80000` and every page starts at or above `0x100000`.
-/

import M12.Allocator
import M12.Library.IndexPool

namespace M12

open ByteMemory

/-! ### The invariant -/

/-- The free pages as a pool of indices. -/
def pool (s : MemoryState) : IndexPool where
  total := s.totalPages.toNat
  free := (Finset.range s.totalPages.toNat).filter fun i => pageFree s i
  bounded := Finset.filter_subset _ _

theorem mem_free (s : MemoryState) (i : Nat) :
    i ∈ (pool s).free ↔ i < s.totalPages.toNat ∧ pageFree s i = true := by
  rw [pool, Finset.mem_filter, Finset.mem_range]

/-- The managed range, the bitmap's place and the counter are in order. -/
structure Managed (s : MemoryState) : Prop where
  memoryMap : s.memoryMap = 0x60000#64
  memoryStart : s.memoryStart = 0x100000#64
  endAbove : 0x100000 < s.memoryEnd.toNat
  endBelow : s.memoryEnd.toNat ≤ 2 ^ 32
  totalPages : s.totalPages.toNat = (s.memoryEnd.toNat - 0x100000) / 4096
  usedPages : s.usedPages.toNat = (pool s).used

/-! ### The managed pages -/

theorem toNat_pageSize : pageSize.toNat = 4096 := rfl

/-- The number of the page an address above 1 MB lies in. -/
theorem toNat_pageNumber {address : BitVec 64} (above : 0x100000 ≤ address.toNat) :
    ((address - 0x100000#64) / pageSize).toNat = (address.toNat - 0x100000) / 4096 := by
  have bound := address.isLt
  rw [BitVec.toNat_udiv, BitVec.toNat_sub, toNat_pageSize, BitVec.toNat_ofNat]
  omega

section Geometry

variable {s : MemoryState} (managed : Managed s)
include managed

theorem totalPages_lt : s.totalPages.toNat < 2 ^ 20 := by
  have below := managed.endBelow
  have total := managed.totalPages
  omega

theorem toNat_memoryStart : s.memoryStart.toNat = 0x100000 := by
  rw [managed.memoryStart]
  rfl

/-- The page number `free_physical_page` computes. -/
theorem toNat_pageIndex {page : BitVec 64} (above : 0x100000 ≤ page.toNat) :
    ((page - s.memoryStart) / pageSize).toNat = (page.toNat - 0x100000) / 4096 := by
  rw [managed.memoryStart, toNat_pageNumber above]

theorem toNat_pageAddress {i : Nat} (inside : i < s.totalPages.toNat) :
    (pageAddress s i).toNat = 0x100000 + 4096 * i := by
  have few := totalPages_lt managed
  rw [pageAddress, BitVec.toNat_add, BitVec.toNat_mul, toNat_memoryStart managed, toNat_pageSize,
    BitVec.toNat_ofNat]
  omega

/-- A managed page starts below the end of memory, so the roll-back test of
`get_physical_page` fails on it. -/
theorem pageAddress_lt_end {i : Nat} (inside : i < s.totalPages.toNat) :
    ¬ pageAddress s i ≥ s.memoryEnd := by
  rw [ge_iff_le, BitVec.le_def, toNat_pageAddress managed inside]
  have total := managed.totalPages
  omega

theorem pageAddress_injective {i j : Nat} (iInside : i < s.totalPages.toNat)
    (jInside : j < s.totalPages.toNat) (same : pageAddress s i = pageAddress s j) : i = j := by
  have numbers := congrArg BitVec.toNat same
  rw [toNat_pageAddress managed iInside, toNat_pageAddress managed jInside] at numbers
  omega

theorem pageAddress_ne_zero {i : Nat} (inside : i < s.totalPages.toNat) :
    pageAddress s i ≠ 0#64 := by
  intro zero
  have numbers := congrArg BitVec.toNat zero
  rw [toNat_pageAddress managed inside, BitVec.toNat_ofNat] at numbers
  omega

/-- The bytes of a managed page. -/
theorem within_page_iff {i : Nat} (inside : i < s.totalPages.toNat) (x : BitVec 64) :
    Within (pageAddress s i) 4096 x ↔
      0x100000 + 4096 * i ≤ x.toNat ∧ x.toNat < 0x100000 + 4096 * i + 4096 := by
  have few := totalPages_lt managed
  have place := toNat_pageAddress managed inside
  rw [within_iff (by omega), place]

theorem not_within_page {i : Nat} (inside : i < s.totalPages.toNat) {x : BitVec 64}
    (low : x.toNat < 0x100000) : ¬ Within (pageAddress s i) 4096 x := by
  rw [within_page_iff managed inside]
  omega

/-- The bitmap lies in `[0x60000, 0x80000)`. -/
theorem within_bitmap {x : BitVec 64}
    (close : Within s.memoryMap ((s.totalPages.toNat + 7) / 8) x) :
    0x60000 ≤ x.toNat ∧ x.toNat < 0x80000 := by
  have few := totalPages_lt managed
  rw [managed.memoryMap] at close
  have numbers := (within_iff (by rw [BitVec.toNat_ofNat]; omega) x).mp close
  rw [BitVec.toNat_ofNat] at numbers
  omega

theorem byteAddress_bounds {i : Nat} (inside : i < s.totalPages.toNat) :
    0x60000 ≤ (Bitmap.byteAddress s.memoryMap i).toNat ∧
      (Bitmap.byteAddress s.memoryMap i).toNat < 0x80000 := by
  have few := totalPages_lt managed
  exact within_bitmap managed (Bitmap.within_byteAddress _ inside (by omega))

/-- Clearing a managed page leaves every bit of the bitmap. -/
theorem test_memset_page (memory : Memory) {i j : Nat} (iInside : i < s.totalPages.toNat)
    (jInside : j < s.totalPages.toNat) :
    Bitmap.test (memset memory (pageAddress s i) 0#32 4096#32) s.memoryMap j =
      Bitmap.test memory s.memoryMap j := by
  refine Bitmap.test_congr (fill_of_not_within memory _ (by decide) fun close => ?_)
  have page := (within_page_iff managed iInside _).mp close
  have bitmap := byteAddress_bounds managed jInside
  omega

/-- A change of memory and of the counter leaves the geometry. -/
theorem Managed.recount {ram : Memory} {usedPages : BitVec 64}
    (count : usedPages.toNat = (pool { s with ram := ram }).used) :
    Managed { s with ram := ram, usedPages := usedPages } where
  memoryMap := managed.memoryMap
  memoryStart := managed.memoryStart
  endAbove := managed.endAbove
  endBelow := managed.endBelow
  totalPages := managed.totalPages
  usedPages := count

end Geometry

/-! ### The two state changes -/

/-- The state after page `i` has been handed out. -/
def claimed (s : MemoryState) (i : Nat) : MemoryState :=
  { s with
    ram := memset (Bitmap.clear s.ram s.memoryMap i) (pageAddress s i) 0#32 4096#32
    usedPages := s.usedPages + 1#64 }

/-- The state after page `i` has been given back. -/
def released (s : MemoryState) (i : Nat) : MemoryState :=
  { s with
    ram := memset (Bitmap.set s.ram s.memoryMap i) (pageAddress s i) 0#32 4096#32
    usedPages := s.usedPages - 1#64 }

section Changes

variable {s : MemoryState} (managed : Managed s)
include managed

theorem pageFree_claimed {i j : Nat} (iInside : i < s.totalPages.toNat)
    (jInside : j < s.totalPages.toNat) :
    pageFree (claimed s i) j = (decide (j ≠ i) && pageFree s j) := by
  have few := totalPages_lt managed
  exact (test_memset_page managed _ iInside jInside).trans
    (Bitmap.test_clear s.ram s.memoryMap (by omega) (by omega))

theorem pageFree_released {i j : Nat} (iInside : i < s.totalPages.toNat)
    (jInside : j < s.totalPages.toNat) :
    pageFree (released s i) j = (decide (j = i) || pageFree s j) := by
  have few := totalPages_lt managed
  exact (test_memset_page managed _ iInside jInside).trans
    (Bitmap.test_set s.ram s.memoryMap (by omega) (by omega))

theorem free_claimed {i : Nat} (inside : i < s.totalPages.toNat) :
    (pool (claimed s i)).free = (pool s).free.erase i := by
  ext j
  rw [Finset.mem_erase, mem_free, mem_free, show (claimed s i).totalPages = s.totalPages from rfl]
  constructor
  · rintro ⟨jInside, free⟩
    rw [pageFree_claimed managed inside jInside, Bool.and_eq_true, decide_eq_true_eq] at free
    exact ⟨free.1, jInside, free.2⟩
  · rintro ⟨different, jInside, free⟩
    rw [pageFree_claimed managed inside jInside, Bool.and_eq_true, decide_eq_true_eq]
    exact ⟨jInside, different, free⟩

theorem free_released {i : Nat} (inside : i < s.totalPages.toNat) :
    (pool (released s i)).free = insert i (pool s).free := by
  ext j
  rw [Finset.mem_insert, mem_free, mem_free,
    show (released s i).totalPages = s.totalPages from rfl]
  constructor
  · rintro ⟨jInside, free⟩
    rw [pageFree_released managed inside jInside, Bool.or_eq_true, decide_eq_true_eq] at free
    exact free.imp id fun held => ⟨jInside, held⟩
  · intro cases
    have jInside : j < s.totalPages.toNat := by
      rcases cases with rfl | held
      · exact inside
      · exact held.1
    rw [pageFree_released managed inside jInside, Bool.or_eq_true, decide_eq_true_eq]
    exact ⟨jInside, cases.imp id And.right⟩

/-- The counter cannot wrap: fewer than `2 ^ 20` pages exist. -/
theorem used_lt : (pool s).used < 2 ^ 20 := by
  have few := totalPages_lt managed
  have whole := (pool s).used_add_card_free
  rw [show (pool s).total = s.totalPages.toNat from rfl] at whole
  omega

theorem managed_claimed {i : Nat} (free : i ∈ (pool s).free) : Managed (claimed s i) := by
  refine managed.recount ?_
  have inside : i < s.totalPages.toNat := IndexPool.lt_total free
  have count := IndexPool.used_of_erase (pool s) (pool (claimed s i)) rfl
    (free_claimed managed inside) free
  have small := used_lt managed
  refine Eq.trans ?_ count.symm
  rw [BitVec.toNat_add, managed.usedPages, BitVec.toNat_ofNat]
  omega

theorem managed_released {i : Nat} (inside : i < s.totalPages.toNat)
    (held : i ∉ (pool s).free) : Managed (released s i) := by
  refine managed.recount ?_
  have count := IndexPool.used_of_insert (pool s) (pool (released s i)) rfl
    (free_released managed inside) held
  have small := used_lt managed
  refine Eq.trans ?_ (Nat.eq_sub_of_add_eq count).symm
  rw [BitVec.toNat_sub, managed.usedPages, BitVec.toNat_ofNat]
  omega

end Changes

/-! ### Frames -/

/-- Outside the bitmap and the page handed out, memory is unchanged. -/
theorem claimed_frame {s : MemoryState} (managed : Managed s) {i : Nat}
    (inside : i < s.totalPages.toNat) {x : BitVec 64}
    (offBitmap : x.toNat < 0x60000 ∨ 0x80000 ≤ x.toNat)
    (offPage : ¬ Within (pageAddress s i) 4096 x) : (claimed s i).ram x = s.ram x := by
  have few := totalPages_lt managed
  refine (fill_of_not_within _ _ (by decide) offPage).trans ?_
  refine Bitmap.clear_of_not_within s.ram inside (by omega) fun close => ?_
  have bounds := within_bitmap managed close
  omega

/-- Outside the bitmap and the page given back, memory is unchanged. -/
theorem released_frame {s : MemoryState} (managed : Managed s) {i : Nat}
    (inside : i < s.totalPages.toNat) {x : BitVec 64}
    (offBitmap : x.toNat < 0x60000 ∨ 0x80000 ≤ x.toNat)
    (offPage : ¬ Within (pageAddress s i) 4096 x) : (released s i).ram x = s.ram x := by
  have few := totalPages_lt managed
  refine (fill_of_not_within _ _ (by decide) offPage).trans ?_
  refine Bitmap.set_of_not_within s.ram inside (by omega) fun close => ?_
  have bounds := within_bitmap managed close
  omega

/-- A page just handed out is zero. -/
theorem claimed_zero (s : MemoryState) (i : Nat) {x : BitVec 64}
    (inPage : Within (pageAddress s i) 4096 x) : (claimed s i).ram x = 0#8 :=
  fill_of_within _ _ (by decide) inPage

/-- A change of memory outside the bitmap changes no bit. -/
theorem pool_congr {s : MemoryState} (managed : Managed s) {ram : Memory}
    (same : ∀ x : BitVec 64, 0x60000 ≤ x.toNat → x.toNat < 0x80000 → ram x = s.ram x) :
    pool { s with ram := ram } = pool s := by
  refine IndexPool.ext rfl ?_
  refine Finset.filter_congr fun i member => ?_
  have bounds := byteAddress_bounds managed (Finset.mem_range.mp member)
  rw [pageFree, pageFree, Bitmap.test_congr (same _ bounds.1 bounds.2)]

theorem managed_congr {s : MemoryState} (managed : Managed s) {ram : Memory}
    (same : ∀ x : BitVec 64, 0x60000 ≤ x.toNat → x.toNat < 0x80000 → ram x = s.ram x) :
    Managed { s with ram := ram } := by
  refine managed.recount ?_
  rw [pool_congr managed same]
  exact managed.usedPages

/-! ### The outcomes of the two calls -/

/-- The search stops at the first free page, or runs past the last page. -/
theorem searchPage_spec (s : MemoryState) (i remaining : Nat) :
    (∃ j, i ≤ j ∧ j < i + remaining ∧ pageFree s j = true ∧
        (∀ k, i ≤ k → k < j → pageFree s k = false) ∧ searchPage s i remaining = claimPage s j) ∨
      ((∀ k, i ≤ k → k < i + remaining → pageFree s k = false) ∧
        searchPage s i remaining = (s, 0#64)) := by
  induction remaining generalizing i with
  | zero => exact Or.inr ⟨fun k low high => absurd high (by omega), rfl⟩
  | succ remaining inductionHypothesis =>
    rw [searchPage]
    cases free : pageFree s i with
    | true =>
      refine Or.inl ⟨i, le_rfl, by omega, free, fun k low high => absurd high (by omega), ?_⟩
      rw [if_pos rfl]
    | false =>
      rw [if_neg Bool.false_ne_true]
      have here (k : Nat) (low : i ≤ k) (later : i + 1 ≤ k → pageFree s k = false) :
          pageFree s k = false := by
        rcases Nat.eq_or_lt_of_le low with rfl | above
        · exact free
        · exact later above
      rcases inductionHypothesis (i + 1) with ⟨j, low, high, freeJ, before, result⟩ | ⟨none, result⟩
      · refine Or.inl ⟨j, by omega, by omega, freeJ, fun k kLow kHigh => ?_, result⟩
        exact here k kLow fun above => before k above kHigh
      · refine Or.inr ⟨fun k kLow kHigh => ?_, result⟩
        exact here k kLow fun above => none k above (by omega)

/-- On a managed page the claim takes its main branch. -/
theorem claimPage_eq {s : MemoryState} (managed : Managed s) {i : Nat}
    (inside : i < s.totalPages.toNat) : claimPage s i = (claimed s i, pageAddress s i) := by
  simp only [claimPage, if_neg (pageAddress_lt_end managed inside), claimed]

/-- `get_physical_page` hands out the lowest free page, or fails without a change. -/
theorem getPhysicalPage_cases {s : MemoryState} (managed : Managed s) :
    (∃ i, IsLeast ((pool s).free : Set Nat) i ∧
        getPhysicalPage s = (claimed s i, pageAddress s i)) ∨
      ((pool s).free = ∅ ∧ getPhysicalPage s = (s, 0#64)) := by
  have started : s.memoryMap ≠ 0#64 := by
    rw [managed.memoryMap]
    decide
  rw [getPhysicalPage, if_neg started]
  rcases searchPage_spec s 0 s.totalPages.toNat with
    ⟨i, -, inside, free, before, result⟩ | ⟨none, result⟩
  · rw [Nat.zero_add] at inside
    refine Or.inl ⟨i, ⟨(mem_free s i).mpr ⟨inside, free⟩, fun j member => ?_⟩, ?_⟩
    · by_contra lower
      have free := ((mem_free s j).mp member).2
      rw [before j (Nat.zero_le j) (not_le.mp lower)] at free
      exact Bool.false_ne_true free
    · rw [result, claimPage_eq managed inside]
  · refine Or.inr ⟨Finset.eq_empty_of_forall_notMem fun j member => ?_, result⟩
    obtain ⟨inside, free⟩ := (mem_free s j).mp member
    rw [none j (Nat.zero_le j) (by rwa [Nat.zero_add])] at free
    exact Bool.false_ne_true free

/-- An address names a page in use. -/
def UsedPage (s : MemoryState) (page : BitVec 64) (i : Nat) : Prop :=
  i < s.totalPages.toNat ∧ i ∉ (pool s).free ∧ page = pageAddress s i

/-- `free_physical_page` gives back the page its argument names, or does nothing. -/
theorem freePhysicalPage_cases {s : MemoryState} (managed : Managed s) (page : BitVec 64) :
    (∃ i, UsedPage s page i ∧ freePhysicalPage s page = released s i) ∨
      ((∀ i, ¬ UsedPage s page i) ∧ freePhysicalPage s page = s) := by
  have started : s.memoryMap ≠ 0#64 := by
    rw [managed.memoryMap]
    decide
  have total := managed.totalPages
  have place {i : Nat} (used : UsedPage s page i) : page.toNat = 0x100000 + 4096 * i := by
    rw [used.2.2, toNat_pageAddress managed used.1]
  rw [freePhysicalPage, if_neg started]
  split_ifs with outside misaligned
  · refine Or.inr ⟨fun i used => ?_, rfl⟩
    rw [ge_iff_le, BitVec.lt_def, BitVec.le_def, toNat_memoryStart managed, place used] at outside
    have inside := used.1
    omega
  · refine Or.inr ⟨fun i used => misaligned ?_, rfl⟩
    apply BitVec.eq_of_toNat_eq
    rw [BitVec.toNat_umod, place used, toNat_pageSize, BitVec.toNat_ofNat]
    omega
  · rw [not_or, ge_iff_le, BitVec.lt_def, BitVec.le_def, toNat_memoryStart managed] at outside
    have aligned : page.toNat % 4096 = 0 := by
      rw [not_not] at misaligned
      have numbers := congrArg BitVec.toNat misaligned
      rwa [BitVec.toNat_umod] at numbers
    have pageIndex := toNat_pageIndex managed (not_lt.mp outside.1)
    simp only [pageIndex, ge_iff_le, BitVec.le_def]
    split_ifs with beyond free
    · refine Or.inr ⟨fun i used => ?_, rfl⟩
      rw [place used] at beyond
      have inside := used.1
      omega
    · have inside : (page.toNat - 0x100000) / 4096 < s.totalPages.toNat := by omega
      have named : page = pageAddress s ((page.toNat - 0x100000) / 4096) := by
        apply BitVec.eq_of_toNat_eq
        rw [toNat_pageAddress managed inside]
        omega
      refine Or.inl ⟨(page.toNat - 0x100000) / 4096, ⟨inside, fun member => ?_, named⟩, ?_⟩
      · rw [((mem_free s _).mp member).2] at free
        exact Bool.false_ne_true free
      · rw [released, ← named]
    · refine Or.inr ⟨fun i used => ?_, rfl⟩
      have same : (page.toNat - 0x100000) / 4096 = i := by
        rw [place used]
        omega
      rw [same, Bool.not_eq_true, Bool.not_eq_false'] at free
      exact used.2.1 ((mem_free s i).mpr ⟨used.1, free⟩)

/-! ### Initialisation establishes the invariant -/

/-- The end of memory `Init_Memory` settles on: the capped end of the largest block, or 512 MB
when the map is rejected. -/
def detectedEnd (ram : Memory) : Nat :=
  match largestEntry (entries ram) with
  | some entry => if CountValid ram then cappedEnd entry else 0x20000000
  | none => 0x20000000

theorem detectedEnd_bounds (ram : Memory) :
    0x100000 < detectedEnd ram ∧ detectedEnd ram ≤ 2 ^ 32 := by
  unfold detectedEnd
  cases chosen : largestEntry (entries ram) with
  | none =>
    simp only
    exact ⟨by decide, by decide⟩
  | some entry =>
    simp only
    split_ifs with valid
    · exact cappedEnd_bounds (largestEntry_candidate chosen).2
    · exact ⟨by decide, by decide⟩

/-- A map without a valid count is rejected. -/
theorem detectedEnd_of_invalid {ram : Memory} (invalid : ¬ CountValid ram) :
    detectedEnd ram = 0x20000000 := by
  rw [detectedEnd]
  cases largestEntry (entries ram) with
  | none => rfl
  | some entry => exact if_neg invalid

/-- Memory that is zero holds no map. -/
theorem detectedEnd_blank : detectedEnd (fun _ => 0#8) = 0x20000000 :=
  detectedEnd_of_invalid (by decide)

theorem setUpBitmap_memoryEnd (ram : Memory) :
    (setUpBitmap (bootMemory ram)).memoryEnd = BitVec.ofNat 64 (detectedEnd ram) := by
  show (if (safeParseMemoryMap ram 0x100000#64 0x20000000#64).1 ≠ 0 then 0x20000000#64
    else (safeParseMemoryMap ram 0x100000#64 0x20000000#64).2) = _
  unfold detectedEnd
  by_cases valid : CountValid ram
  · cases chosen : largestEntry (entries ram) with
    | none =>
      rw [safeParseMemoryMap_of_none ram _ (Or.inr chosen)]
      rfl
    | some entry =>
      rw [safeParseMemoryMap_of_largest ram _ valid chosen]
      simp only [ne_eq, not_true_eq_false, if_false, if_pos valid]
  · rw [safeParseMemoryMap_of_none ram _ (Or.inl valid)]
    cases largestEntry (entries ram) with
    | none => rfl
    | some entry =>
      simp only [if_neg valid]
      rfl

/-- Reserving a range that ends below the managed pages marks nothing. -/
theorem markMemoryRangeUsed_below (s : MemoryState) (start : BitVec 64) {stop : BitVec 64}
    (below : stop.toNat ≤ s.memoryStart.toNat) : markMemoryRangeUsed s start stop = s := by
  unfold markMemoryRangeUsed
  simp only
  refine if_pos ?_
  rw [ge_iff_le, BitVec.le_def]
  split_ifs with high low low
  · rw [gt_iff_lt, BitVec.lt_def] at high
    omega
  · rw [gt_iff_lt, BitVec.lt_def] at high
    rw [BitVec.lt_def] at low
    omega
  · exact below
  · rw [BitVec.lt_def] at low
    omega

theorem toNat_calculateBitmapSize (totalPages : BitVec 64) (small : totalPages.toNat < 2 ^ 20) :
    (calculateBitmapSize totalPages).toNat = (totalPages.toNat + 7) / 8 := by
  rw [calculateBitmapSize, BitVec.toNat_udiv, BitVec.toNat_add, BitVec.toNat_ofNat,
    BitVec.toNat_ofNat, show 8 % 2 ^ 64 = 8 from rfl]
  omega

theorem setUpBitmap_totalPages (ram : Memory) :
    (setUpBitmap (bootMemory ram)).totalPages.toNat = (detectedEnd ram - 0x100000) / 4096 := by
  have bounds := detectedEnd_bounds ram
  rw [show (setUpBitmap (bootMemory ram)).totalPages =
      ((setUpBitmap (bootMemory ram)).memoryEnd - 0x100000#64) / pageSize from rfl,
    setUpBitmap_memoryEnd, BitVec.toNat_udiv, BitVec.toNat_sub, toNat_pageSize,
    BitVec.toNat_ofNat, BitVec.toNat_ofNat]
  omega

/-- All the reservations of `Init_Memory` end below 1 MB, so none of them marks a page. -/
theorem initMemory_eq (ram : Memory) :
    initMemory (bootMemory ram) = setUpBitmap (bootMemory ram) := by
  have bounds := detectedEnd_bounds ram
  have total := setUpBitmap_totalPages ram
  have start : (setUpBitmap (bootMemory ram)).memoryStart.toNat = 0x100000 := rfl
  have size := toNat_calculateBitmapSize (setUpBitmap (bootMemory ram)).totalPages (by omega)
  unfold initMemory
  simp only
  rw [markMemoryRangeUsed_below _ 0x10000#64 (by rw [start]; decide),
    markMemoryRangeUsed_below _ 0x1000#64 (by rw [start]; decide),
    markMemoryRangeUsed_below _ 0x5000#64 (by rw [start]; decide),
    markMemoryRangeUsed_below _ 0x60000#64 ?_,
    markMemoryRangeUsed_below _ 0xB8000#64 (by rw [start]; decide)]
  rw [start, BitVec.toNat_add, size, BitVec.toNat_ofNat]
  omega

/-- Every page is free after `Init_Memory`. -/
theorem free_initMemory (ram : Memory) :
    (pool (initMemory (bootMemory ram))).free =
      Finset.range ((detectedEnd ram - 0x100000) / 4096) := by
  have bounds := detectedEnd_bounds ram
  have total := setUpBitmap_totalPages ram
  have size := toNat_calculateBitmapSize (setUpBitmap (bootMemory ram)).totalPages (by omega)
  ext i
  rw [initMemory_eq, mem_free, Finset.mem_range, total]
  refine and_iff_left_of_imp fun inside => ?_
  show Bitmap.test (fill ram 0x60000#64 0xFF#8
    (calculateBitmapSize (setUpBitmap (bootMemory ram)).totalPages).toNat) 0x60000#64 i = true
  rw [size, total]
  exact Bitmap.test_fill_ones ram 0x60000#64 inside (by omega)

theorem managed_initMemory (ram : Memory) : Managed (initMemory (bootMemory ram)) where
  memoryMap := by rw [initMemory_eq]; rfl
  memoryStart := by rw [initMemory_eq]; rfl
  endAbove := by
    have bounds := detectedEnd_bounds ram
    rw [initMemory_eq, setUpBitmap_memoryEnd, BitVec.toNat_ofNat]
    omega
  endBelow := by
    have bounds := detectedEnd_bounds ram
    rw [initMemory_eq, setUpBitmap_memoryEnd, BitVec.toNat_ofNat]
    omega
  totalPages := by
    have bounds := detectedEnd_bounds ram
    rw [initMemory_eq, setUpBitmap_totalPages, setUpBitmap_memoryEnd, BitVec.toNat_ofNat]
    omega
  usedPages := by
    rw [IndexPool.used, free_initMemory, Finset.card_range, initMemory_eq,
      show (pool (setUpBitmap (bootMemory ram))).total =
        (setUpBitmap (bootMemory ram)).totalPages.toNat from rfl, setUpBitmap_totalPages,
      Nat.sub_self]
    rfl

/-! ### Runs -/

/-- Everything a call can do: hand out the lowest free page, take back the page in use it
names, or nothing. -/
theorem memoryStep_cases {s : MemoryState} (managed : Managed s) (call : MemoryCall) :
    (∃ i, call = .get ∧ IsLeast ((pool s).free : Set Nat) i ∧ memoryStep s call = claimed s i) ∨
      (∃ i page, call = .free page ∧ UsedPage s page i ∧ memoryStep s call = released s i) ∨
      memoryStep s call = s := by
  cases call with
  | get =>
    rw [memoryStep]
    rcases getPhysicalPage_cases managed with ⟨i, least, result⟩ | ⟨-, result⟩
    · exact Or.inl ⟨i, rfl, least, by rw [result]⟩
    · exact Or.inr (Or.inr (by rw [result]))
  | free page =>
    rw [memoryStep]
    rcases freePhysicalPage_cases managed page with ⟨i, used, result⟩ | ⟨-, result⟩
    · exact Or.inr (Or.inl ⟨i, page, rfl, used, result⟩)
    · exact Or.inr (Or.inr result)

theorem managed_memoryStep {s : MemoryState} (managed : Managed s) (call : MemoryCall) :
    Managed (memoryStep s call) := by
  rcases memoryStep_cases managed call with ⟨i, -, least, result⟩ | ⟨i, _, -, used, result⟩ | result
  · rw [result]
    exact managed_claimed managed least.1
  · rw [result]
    exact managed_released managed used.1 used.2.1
  · rw [result]
    exact managed

/-- No call moves the managed range. -/
theorem memoryStep_range {s : MemoryState} (managed : Managed s) (call : MemoryCall) :
    (memoryStep s call).totalPages = s.totalPages ∧
      (memoryStep s call).memoryStart = s.memoryStart := by
  rcases memoryStep_cases managed call with ⟨i, -, -, result⟩ | ⟨i, -, -, -, result⟩ | result <;>
    rw [result] <;> exact ⟨rfl, rfl⟩

theorem managed_memoryRun {s : MemoryState} (managed : Managed s) (calls : List MemoryCall) :
    Managed (memoryRun s calls) := by
  induction calls generalizing s with
  | nil => exact managed
  | cons call rest inductionHypothesis =>
    exact inductionHypothesis (managed_memoryStep managed call)

theorem memoryRun_range {s : MemoryState} (managed : Managed s) (calls : List MemoryCall) :
    (memoryRun s calls).totalPages = s.totalPages ∧
      (memoryRun s calls).memoryStart = s.memoryStart := by
  induction calls generalizing s with
  | nil => exact ⟨rfl, rfl⟩
  | cons call rest inductionHypothesis =>
    obtain ⟨total, start⟩ := memoryStep_range managed call
    obtain ⟨totalRest, startRest⟩ := inductionHypothesis (managed_memoryStep managed call)
    exact ⟨totalRest.trans total, startRest.trans start⟩

theorem memoryRun_cons (s : MemoryState) (call : MemoryCall) (rest : List MemoryCall) :
    memoryRun s (call :: rest) = memoryRun (memoryStep s call) rest := rfl

theorem memoryRun_append (s : MemoryState) (first second : List MemoryCall) :
    memoryRun s (first ++ second) = memoryRun (memoryRun s first) second :=
  List.foldl_append

theorem isLeast_Ico {low high : Nat} (nonempty : low < high) :
    IsLeast (Finset.Ico low high : Set Nat) low :=
  ⟨Finset.mem_coe.mpr (Finset.mem_Ico.mpr ⟨le_rfl, nonempty⟩),
    fun _ member => (Finset.mem_Ico.mp (Finset.mem_coe.mp member)).1⟩

theorem erase_Ico (low high : Nat) :
    (Finset.Ico low high).erase low = Finset.Ico (low + 1) high := by
  ext i
  rw [Finset.mem_erase, Finset.mem_Ico, Finset.mem_Ico]
  omega

/-- An interval of free pages is handed out from the bottom up. -/
theorem free_replicate_get {s : MemoryState} (managed : Managed s) {low high : Nat}
    (free : (pool s).free = Finset.Ico low high) {count : Nat} (enough : low + count ≤ high) :
    (pool (memoryRun s (List.replicate count .get))).free = Finset.Ico (low + count) high := by
  induction count with
  | zero => exact free
  | succ count inductionHypothesis =>
    have before := inductionHypothesis (by omega)
    have managedBefore := managed_memoryRun managed (List.replicate count .get)
    have least := isLeast_Ico (show low + count < high by omega)
    rw [← before] at least
    rw [List.replicate_succ', memoryRun_append]
    show (pool (memoryStep (memoryRun s (List.replicate count .get)) .get)).free = _
    rcases getPhysicalPage_cases managedBefore with ⟨i, leastI, result⟩ | ⟨exhausted, -⟩
    · rw [memoryStep, result, free_claimed managedBefore (IndexPool.lt_total leastI.1),
        leastI.unique least, before, erase_Ico, Nat.add_assoc]
    · have member := least.1
      rw [exhausted] at member
      exact absurd member (Finset.notMem_empty _)

theorem getPhysicalPage_replicate {s : MemoryState} (managed : Managed s) {low high : Nat}
    (free : (pool s).free = Finset.Ico low high) {count : Nat} (enough : low + count < high) :
    (getPhysicalPage (memoryRun s (List.replicate count .get))).2.toNat =
      0x100000 + 4096 * (low + count) := by
  have managedLast := managed_memoryRun managed (List.replicate count .get)
  have least := isLeast_Ico enough
  rw [← free_replicate_get managed free enough.le] at least
  rcases getPhysicalPage_cases managedLast with ⟨i, leastI, result⟩ | ⟨exhausted, -⟩
  · rw [result, toNat_pageAddress managedLast (IndexPool.lt_total leastI.1), leastI.unique least]
  · have member := least.1
    rw [exhausted] at member
    exact absurd member (Finset.notMem_empty _)

/-! ### The allocator refines the pool -/

/-- What a call does to the pool: an aligned address above 1 MB names an index to give back,
any other address names nothing. -/
def poolStep (pool : IndexPool) : MemoryCall → IndexPool
  | .get => pool.take.1
  | .free page =>
    if page.toNat % 4096 = 0 ∧ 0x100000 ≤ page.toNat then
      pool.give ((page.toNat - 0x100000) / 4096)
    else pool

/-- The concrete call and the abstract one commute with reading the bitmap. -/
theorem pool_memoryStep {s : MemoryState} (managed : Managed s) (call : MemoryCall) :
    pool (memoryStep s call) = poolStep (pool s) call := by
  cases call with
  | get =>
    rw [memoryStep, poolStep]
    rcases getPhysicalPage_cases managed with ⟨i, least, result⟩ | ⟨exhausted, result⟩
    · rw [result, IndexPool.take_of_isLeast least]
      exact IndexPool.ext rfl (free_claimed managed (IndexPool.lt_total least.1))
    · rw [result, IndexPool.take_of_empty exhausted]
  | free page =>
    rw [memoryStep, poolStep]
    rcases freePhysicalPage_cases managed page with ⟨i, used, result⟩ | ⟨unused, result⟩
    · obtain ⟨inside, held, named⟩ := used
      have place : page.toNat = 0x100000 + 4096 * i := by
        rw [named, toNat_pageAddress managed inside]
      have index : (page.toNat - 0x100000) / 4096 = i := by omega
      rw [result, if_pos (by omega), index]
      refine IndexPool.ext ?_ ?_
      · rw [IndexPool.total_give]
        rfl
      · rw [free_released managed inside, IndexPool.give_of_lt inside]
    · rw [result]
      split_ifs with aligned
      · refine (IndexPool.give_of_not_used fun idle => ?_).symm
        refine unused _ ⟨idle.1, idle.2, BitVec.eq_of_toNat_eq ?_⟩
        rw [toNat_pageAddress managed idle.1]
        omega
      · rfl

theorem pool_memoryRun {s : MemoryState} (managed : Managed s) (calls : List MemoryCall) :
    pool (memoryRun s calls) = calls.foldl poolStep (pool s) := by
  induction calls generalizing s with
  | nil => rfl
  | cons call rest inductionHypothesis =>
    rw [List.foldl_cons, ← pool_memoryStep managed]
    exact inductionHypothesis (managed_memoryStep managed call)

/-- A page in use stays in use until it is freed. -/
theorem held_memoryRun {s : MemoryState} (managed : Managed s) {i : Nat}
    (inside : i < s.totalPages.toNat) (held : i ∉ (pool s).free) {calls : List MemoryCall}
    (kept : MemoryCall.free (pageAddress s i) ∉ calls) :
    i ∉ (pool (memoryRun s calls)).free := by
  induction calls generalizing s with
  | nil => exact held
  | cons call rest inductionHypothesis =>
    rw [List.mem_cons, not_or] at kept
    have managedNext := managed_memoryStep managed call
    obtain ⟨total, start⟩ := memoryStep_range managed call
    have address : pageAddress (memoryStep s call) i = pageAddress s i := by
      rw [pageAddress, pageAddress, start]
    refine inductionHypothesis managedNext (by rwa [total]) ?_ (by rw [address]; exact kept.2)
    rcases memoryStep_cases managed call with
      ⟨j, -, least, result⟩ | ⟨j, page, freed, used, result⟩ | result
    · rw [result, free_claimed managed (IndexPool.lt_total least.1)]
      exact fun member => held (Finset.mem_of_mem_erase member)
    · rw [result, free_released managed used.1, Finset.mem_insert, not_or]
      refine ⟨fun same => kept.1 ?_, held⟩
      rw [freed, same, used.2.2]
    · rw [result]
      exact held

/-- A page is handed out a second time only after a call has freed it. -/
theorem freed_of_getPhysicalPage_again {s : MemoryState} (managed : Managed s)
    {later : List MemoryCall} {page : BitVec 64} (nonNull : page ≠ 0#64)
    (first : (getPhysicalPage s).2 = page)
    (second : (getPhysicalPage (memoryRun s (.get :: later))).2 = page) :
    MemoryCall.free page ∈ later := by
  rcases getPhysicalPage_cases managed with ⟨i, least, result⟩ | ⟨-, result⟩
  · have inside : i < s.totalPages.toNat := IndexPool.lt_total least.1
    rw [result] at first
    subst first
    rw [memoryRun_cons, memoryStep, result] at second
    by_contra kept
    have managedClaimed := managed_claimed managed least.1
    have taken : i ∉ (pool (claimed s i)).free := by
      rw [free_claimed managed inside]
      exact Finset.notMem_erase i _
    have held := held_memoryRun managedClaimed inside taken kept
    have managedLater := managed_memoryRun managedClaimed later
    obtain ⟨total, start⟩ := memoryRun_range managedClaimed later
    rcases getPhysicalPage_cases managedLater with ⟨j, leastJ, resultJ⟩ | ⟨-, resultJ⟩
    · rw [resultJ] at second
      have same : pageAddress (memoryRun (claimed s i) later) i = pageAddress s i := by
        rw [pageAddress, start]
        rfl
      have insideLater : i < (memoryRun (claimed s i) later).totalPages.toNat := by
        rw [total]
        exact inside
      obtain rfl := pageAddress_injective managedLater (IndexPool.lt_total leastJ.1) insideLater
        (second.trans same.symm)
      exact held leastJ.1
    · rw [resultJ] at second
      exact nonNull second.symm
  · rw [result] at first
    exact absurd first.symm nonNull

/-- A state in which the allocator behaves as its pool of free pages. -/
structure RefinesPool (s : MemoryState) : Prop where
  /-- The lowest free page is returned and removed, and no other. -/
  getLowest : ∀ i, IsLeast {i | i < s.totalPages.toNat ∧ pageFree s i = true} i →
    (getPhysicalPage s).2.toNat = 0x100000 + 4096 * i ∧
      (pool (getPhysicalPage s).1).free = (pool s).free.erase i
  /-- `NULL` is returned exactly when no page is free. -/
  getNull : (getPhysicalPage s).2 = 0#64 ↔ ∀ i < s.totalPages.toNat, pageFree s i = false
  /-- A call that returns `NULL` changes nothing. -/
  getNullFrame : (getPhysicalPage s).2 = 0#64 → (getPhysicalPage s).1 = s
  /-- The roll-back test fails on every page the search can find. -/
  noRollBack : ∀ i < s.totalPages.toNat, ¬ pageAddress s i ≥ s.memoryEnd
  /-- The address of a page in use makes that page free, and no other. -/
  freeUsed : ∀ page : BitVec 64, ∀ i < s.totalPages.toNat, pageFree s i = false →
    page.toNat = 0x100000 + 4096 * i →
      (pool (freePhysicalPage s page)).free = insert i (pool s).free
  /-- Any other address leaves the allocator as it is. -/
  freeOther : ∀ page : BitVec 64,
    (∀ i < s.totalPages.toNat, pageFree s i = false → page.toNat ≠ 0x100000 + 4096 * i) →
      freePhysicalPage s page = s
  /-- The counter is the number of clear bits. -/
  usedCount : s.usedPages.toNat =
    ((Finset.range s.totalPages.toNat).filter fun i => pageFree s i = false).card
  usedLe : s.usedPages.toNat ≤ s.totalPages.toNat
  /-- The counter is positive whenever a free takes effect, so its decrement does not wrap. -/
  usedPositive : ∀ page : BitVec 64, ∀ i < s.totalPages.toNat, pageFree s i = false →
    page.toNat = 0x100000 + 4096 * i → 0 < s.usedPages.toNat
  freeMemory : (getFreeMemory s).toNat = 4096 * (pool s).free.card

/-- The clear bits below `total_pages` are the indices in use. -/
theorem used_eq_clear (s : MemoryState) :
    (pool s).used =
      ((Finset.range s.totalPages.toNat).filter fun i => pageFree s i = false).card := by
  rw [IndexPool.used_eq_card]
  refine congrArg Finset.card (Finset.ext fun i => ?_)
  rw [Finset.mem_sdiff, Finset.mem_filter, mem_free, Finset.mem_range,
    show (pool s).total = s.totalPages.toNat from rfl]
  cases pageFree s i <;> simp

theorem usedPage_of_clear {s : MemoryState} (managed : Managed s) {page : BitVec 64} {i : Nat}
    (inside : i < s.totalPages.toNat) (clear : pageFree s i = false)
    (place : page.toNat = 0x100000 + 4096 * i) : UsedPage s page i := by
  refine ⟨inside, fun member => ?_, BitVec.eq_of_toNat_eq ?_⟩
  · rw [((mem_free s i).mp member).2] at clear
    exact Bool.noConfusion clear
  · rw [place, toNat_pageAddress managed inside]

theorem toNat_getFreeMemory {s : MemoryState} (managed : Managed s) :
    (getFreeMemory s).toNat = 4096 * (pool s).free.card := by
  have whole := (pool s).used_add_card_free
  have few := totalPages_lt managed
  rw [show (pool s).total = s.totalPages.toNat from rfl] at whole
  rw [getFreeMemory, BitVec.toNat_mul, BitVec.toNat_sub, managed.usedPages, toNat_pageSize]
  omega

theorem refinesPool_of_managed {s : MemoryState} (managed : Managed s) : RefinesPool s where
  getLowest i least := by
    have lowest : IsLeast ((pool s).free : Set Nat) i :=
      ⟨(mem_free s i).mpr least.1, fun j member => least.2 ((mem_free s j).mp member)⟩
    rcases getPhysicalPage_cases managed with ⟨j, leastJ, result⟩ | ⟨exhausted, -⟩
    · obtain rfl := lowest.unique leastJ
      rw [result]
      exact ⟨toNat_pageAddress managed least.1.1, free_claimed managed least.1.1⟩
    · have member := lowest.1
      rw [exhausted] at member
      exact absurd member (Finset.notMem_empty i)
  getNull := by
    rcases getPhysicalPage_cases managed with ⟨i, least, result⟩ | ⟨exhausted, result⟩
    · obtain ⟨inside, free⟩ := (mem_free s i).mp least.1
      rw [result]
      refine ⟨fun zero => absurd zero (pageAddress_ne_zero managed inside), fun none => ?_⟩
      rw [none i inside] at free
      exact Bool.noConfusion free
    · rw [result]
      refine ⟨fun _ i inside => ?_, fun _ => rfl⟩
      rw [← Bool.not_eq_true]
      intro free
      exact Finset.notMem_empty i (exhausted ▸ (mem_free s i).mpr ⟨inside, free⟩)
  getNullFrame zero := by
    rcases getPhysicalPage_cases managed with ⟨i, least, result⟩ | ⟨-, result⟩
    · rw [result] at zero
      exact absurd zero (pageAddress_ne_zero managed (IndexPool.lt_total least.1))
    · rw [result]
  noRollBack i inside := pageAddress_lt_end managed inside
  freeUsed page i inside clear place := by
    have used := usedPage_of_clear managed inside clear place
    rcases freePhysicalPage_cases managed page with ⟨j, usedJ, result⟩ | ⟨unused, -⟩
    · have same : i = j :=
        pageAddress_injective managed inside usedJ.1 (used.2.2.symm.trans usedJ.2.2)
      rw [result, same, free_released managed usedJ.1]
    · exact absurd used (unused i)
  freeOther page other := by
    rcases freePhysicalPage_cases managed page with ⟨i, used, -⟩ | ⟨-, result⟩
    · refine absurd ?_ (other i used.1 ?_)
      · rw [used.2.2, toNat_pageAddress managed used.1]
      · rw [← Bool.not_eq_true]
        exact fun free => used.2.1 ((mem_free s i).mpr ⟨used.1, free⟩)
    · exact result
  usedCount := by rw [managed.usedPages, used_eq_clear]
  usedLe := by
    rw [managed.usedPages]
    exact Nat.sub_le _ _
  usedPositive page i inside clear _ := by
    rw [managed.usedPages, used_eq_clear]
    exact Finset.card_pos.mpr ⟨i, Finset.mem_filter.mpr ⟨Finset.mem_range.mpr inside, clear⟩⟩
  freeMemory := toNat_getFreeMemory managed

/-- For every memory map and every sequence of calls with arbitrary addresses, the allocator
refines its pool of free pages: the run of the pool tracks the run of the code, each call has
the pool's outcome, and a page is handed out again only after a call has freed it. -/
theorem allocator_refines_pool (ram : Memory) (calls : List MemoryCall) :
    RefinesPool (memoryRun (initMemory (bootMemory ram)) calls) ∧
      pool (memoryRun (initMemory (bootMemory ram)) calls) =
        calls.foldl poolStep (pool (initMemory (bootMemory ram))) ∧
      ∀ later page, page ≠ 0#64 →
        (getPhysicalPage (memoryRun (initMemory (bootMemory ram)) calls)).2 = page →
        (getPhysicalPage (memoryRun (initMemory (bootMemory ram))
          (calls ++ .get :: later))).2 = page →
        MemoryCall.free page ∈ later := by
  have managed := managed_memoryRun (managed_initMemory ram) calls
  refine ⟨refinesPool_of_managed managed, pool_memoryRun (managed_initMemory ram) calls, ?_⟩
  intro later page nonNull first second
  rw [memoryRun_append] at second
  exact freed_of_getPhysicalPage_again managed nonNull first second

end M12
