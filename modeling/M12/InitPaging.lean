/-
This file follows `Init_Paging` from the tables the boot loader left.

The boot loader's PML4 at `0x1000` lies below the kernel's range, so the function
always builds a new one: it takes a page, copies the single boot entry into it,
hangs a PDPT and a PD of its own under the last entry for the kernel's half of
the address space, and loads `CR3`. It succeeds exactly when three pages are
free, and then the tables form the tree of `OwnedTables` with no page held by a
client.
-/

import M12.BootTables
import M12.GrownTables

namespace M12

open ByteMemory

/-- The kernel's state when `Init_Paging` is called: the boot loader has built its tables in
`ram` and `Init_Memory` has run. -/
def bootPaging (ram : Memory) : PagingState where
  toMemoryState := initMemory (bootMemory (setUpBootTables ram))
  kernelPml4 := 0#64
  cr3 := bootCr3

/-! ### The state before -/

/-- `Init_Memory` writes nothing below its bitmap. -/
theorem initMemory_frame (ram : Memory) {x : BitVec 64} (low : x.toNat < 0x60000) :
    (initMemory (bootMemory ram)).ram x = ram x := by
  have total := setUpBitmap_totalPages ram
  have bounds := detectedEnd_bounds ram
  have size := toNat_calculateBitmapSize (setUpBitmap (bootMemory ram)).totalPages (by omega)
  rw [initMemory_eq]
  show fill ram 0x60000#64 0xFF#8
    (calculateBitmapSize (setUpBitmap (bootMemory ram)).totalPages).toNat x = ram x
  rw [size]
  refine fill_of_not_within ram _ (by omega) fun close => ?_
  rw [within_iff (by rw [BitVec.toNat_ofNat]; omega), BitVec.toNat_ofNat] at close
  omega

/-- The boot loader's tables lie below the bitmap. -/
theorem read_low_congr {first second : Memory}
    (same : ∀ x : BitVec 64, x.toNat < 0x60000 → second x = first x) {table : BitVec 64}
    (aligned : WordTable.Aligned table) (low : table.toNat < 0x5000) {i : Nat} (inside : i < 512) :
    WordTable.read second table i = WordTable.read first table i := by
  refine WordTable.read_congr aligned inside fun x close => ?_
  rw [WordTable.within_page aligned] at close
  exact same x (by omega)

theorem bootMapped_congr {first second : Memory}
    (same : ∀ x : BitVec 64, x.toNat < 0x60000 → second x = first x) (mapped : BootMapped first) :
    BootMapped second := by
  constructor <;> intro i inside
  · rw [read_low_congr same aligned_0x1000 (by decide) inside, mapped.pml4 i inside]
  · rw [read_low_congr same aligned_0x2000 (by decide) inside, mapped.pdpt i inside]
  · rw [read_low_congr same aligned_0x3000 (by decide) inside, mapped.pd i inside]
  · rw [read_low_congr same aligned_0x4000 (by decide) inside, mapped.pt i inside]

theorem bootMapped_bootPaging {ram : Memory} (zeroed : ZeroedTables ram) :
    BootMapped (bootPaging ram).ram :=
  bootMapped_congr (fun _ low => initMemory_frame _ low) (bootMapped_setUpBootTables zeroed)

/-! ### Copying the boot entry -/

theorem foldl_copyEntry {s : PagingState} {newPml4 : BitVec 64} (indices : List Nat)
    (absent : ∀ i ∈ indices,
      hasFlag (WordTable.read s.ram (getCurrentPml4 s) i) pagePresent = false) :
    indices.foldl (copyEntry newPml4) s = s := by
  induction indices with
  | nil => rfl
  | cons i rest inductionHypothesis =>
    rw [List.forall_mem_cons] at absent
    rw [List.foldl_cons, copyEntry, absent.1, if_neg Bool.false_ne_true]
    exact inductionHypothesis absent.2

/-- The boot PML4 has one entry to copy. -/
theorem copyBootMappings_eq {s : PagingState} (mapped : BootMapped s.ram) (boot : s.cr3 = bootCr3)
    {newPml4 : BitVec 64} (aligned : WordTable.Aligned newPml4) (different : newPml4 ≠ 0x1000#64) :
    copyBootMappings s newPml4 = writeEntry s newPml4 0 0x2003#64 := by
  have current : getCurrentPml4 s = 0x1000#64 := by
    rw [getCurrentPml4, boot]
    decide
  have first : copyEntry newPml4 s 0 = writeEntry s newPml4 0 0x2003#64 := by
    rw [copyEntry, current, mapped.pml4 0 (by decide), if_pos rfl]
    exact if_pos (by decide)
  rw [copyBootMappings, first]
  refine foldl_copyEntry _ fun i member => ?_
  have range := List.mem_range'_1.mp member
  rw [show getCurrentPml4 (writeEntry s newPml4 0 0x2003#64) = 0x1000#64 from current, writeEntry]
  simp only
  rw [WordTable.read_write_other _ aligned aligned_0x1000 (by decide) (by omega) _
    fun both => different both.1.symm, mapped.pml4 i (by omega), if_neg (by omega)]
  decide

/-! ### The tree under a fresh PML4 -/

section FreshPml4

variable {s : PagingState} (managed : Managed s.toMemoryState) {i : Nat}
  (used : UsedPage s.toMemoryState s.kernelPml4 i) (mapped : BootMapped s.ram)
  (root : ∀ e < 512, WordTable.read s.ram s.kernelPml4 e = if e = 0 then 0x2003#64 else 0#64)
include mapped root

/-- Only the boot loader's PDPT and PD hang under it. -/
theorem live_fresh (n : Node) :
    Live s.ram s.kernelPml4 n ↔ n = .pml4 ∨ n = .pdpt 0 ∨ n = .pd 0 0 := by
  have flag (e : Nat) (link : BitVec 64) (present : hasFlag link pagePresent = true) :
      hasFlag (if e = 0 then link else 0#64) pagePresent = true ↔ e = 0 := by
    split_ifs with zero
    · exact iff_of_true present zero
    · exact iff_of_false (by decide) zero
  have top (a : Nat) : Live s.ram s.kernelPml4 (.pdpt a) ↔ a = 0 := by
    refine Iff.trans (and_congr_right fun inside => ?_) (and_iff_right_of_imp ?_)
    · rw [nodeEntry, nodePage, root a inside, flag a _ (by decide)]
    · rintro rfl
      decide
  cases n with
  | pml4 => exact iff_of_true trivial (Or.inl rfl)
  | pdpt a =>
    rw [top a]
    simp
  | pd a b =>
    have below : (Live s.ram s.kernelPml4 (.pdpt a) ∧ b < 512 ∧
        hasFlag (nodeEntry s.ram s.kernelPml4 (.pdpt a) b) pagePresent = true) ↔
        a = 0 ∧ b = 0 := by
      rw [top a]
      refine and_congr_right fun zero => ?_
      have page : nodePage s.ram s.kernelPml4 (.pdpt a) = 0x2000#64 := by
        rw [nodePage, zero, root 0 (by decide)]
        decide
      refine Iff.trans (and_congr_right fun inside => ?_) (and_iff_right_of_imp ?_)
      · rw [nodeEntry, page, mapped.pdpt b inside, flag b _ (by decide)]
      · rintro rfl
        decide
    rw [live_pd, below]
    simp

omit mapped in
theorem nodePage_fresh_pdpt : nodePage s.ram s.kernelPml4 (.pdpt 0) = 0x2000#64 := by
  rw [nodePage, root 0 (by decide)]
  decide

theorem nodePage_fresh_pd : nodePage s.ram s.kernelPml4 (.pd 0 0) = 0x3000#64 := by
  have above := nodePage_fresh_pdpt root
  rw [nodePage] at above
  rw [nodePage, above, mapped.pdpt 0 (by decide)]
  decide

/-- Its one leaf is the boot loader's page table. -/
theorem leafEntry_fresh (a b : Nat) {k : Nat} (inside : k < 512) :
    leafEntry s.ram s.kernelPml4 a b k =
      if a = 0 ∧ b = 0 ∧ k = 0 then 0x4003#64 else 0#64 := by
  have live := live_fresh mapped root (.pd a b)
  simp only [reduceCtorEq, Node.pd.injEq, false_or] at live
  by_cases both : a = 0 ∧ b = 0
  · rw [leafEntry_of_live (live.mpr both), nodeEntry, both.1, both.2,
      nodePage_fresh_pd mapped root, mapped.pd k inside]
    simp only [true_and]
  · rw [leafEntry_of_not_live fun liveHere => both (live.mp liveHere),
      if_neg fun all => both ⟨all.1, all.2.1⟩]

include managed used

theorem owned_fresh : OwnedTables s ∅ := by
  have pdpt := nodePage_fresh_pdpt root
  have pd := nodePage_fresh_pd mapped root
  have place := toNat_usedPage managed used
  have live (n : Node) := live_fresh mapped root n
  have ne_low {page : BitVec 64} (low : page.toNat < 0x100000) : s.kernelPml4 ≠ page := by
    rintro rfl
    omega
  refine ⟨managed, by simp, fun n liveN => ?_, by simp, fun m n liveM liveN same => ?_,
    fun a b liveN => ?_, fun a b k inside present => ?_, mapped.pt⟩
  · rcases (live n).mp liveN with rfl | rfl | rfl
    · exact Or.inr (Or.inr ⟨i, used⟩)
    · exact Or.inl pdpt
    · exact Or.inr (Or.inl pd)
  · rcases (live m).mp liveM with rfl | rfl | rfl <;>
      rcases (live n).mp liveN with rfl | rfl | rfl
    · rfl
    · rw [pdpt] at same
      exact absurd same (ne_low (by decide))
    · rw [pd] at same
      exact absurd same (ne_low (by decide))
    · rw [pdpt] at same
      exact absurd same.symm (ne_low (by decide))
    · rfl
    · rw [pdpt, pd] at same
      exact absurd same (by decide)
    · rw [pd] at same
      exact absurd same.symm (ne_low (by decide))
    · rw [pdpt, pd] at same
      exact absurd same (by decide)
    · rfl
  · have both := (live _).mp liveN
    simp only [reduceCtorEq, Node.pd.injEq, false_or] at both
    rw [both.1, both.2, nodeEntry, pdpt, mapped.pdpt 0 (by decide)]
    decide
  · rw [leafEntry_fresh mapped root a b inside] at present ⊢
    split_ifs at present ⊢
    · exact Or.inr rfl
    · exact absurd present (by decide)

end FreshPml4

/-! ### The kernel's half of the address space -/

/-- Building a level that is absent, with an interval of free pages. -/
theorem ensureTable_interval {s : PagingState} {held : Finset (BitVec 64)}
    (tables : OwnedTables s held) {parent child : Node} {index : Nat}
    (below : Below parent index child) (live : Live s.ram s.kernelPml4 parent)
    (inside : index < 512) (absent : ¬ Live s.ram s.kernelPml4 child) {low high : Nat}
    (free : (pool s.toMemoryState).free = Finset.Ico low high) {flags : BitVec 64}
    (small : flags.toNat < 128) (present : hasFlag flags pagePresent = true) :
    (low < high ∧ ∃ next,
        ensureTable s (nodePage s.ram s.kernelPml4 parent) index flags = (next, true) ∧
        OwnedTables next held ∧ Extends s next ∧
        (∀ n, Live next.ram next.kernelPml4 n ↔ Live s.ram s.kernelPml4 n ∨ n = child) ∧
        (pool next.toMemoryState).free = Finset.Ico (low + 1) high) ∨
      (high ≤ low ∧
        ensureTable s (nodePage s.ram s.kernelPml4 parent) index flags = (s, false)) := by
  have absentFlag : hasFlag (WordTable.read s.ram (nodePage s.ram s.kernelPml4 parent) index)
      pagePresent = false := by
    rw [← Bool.not_eq_true]
    exact fun flag => absent ((live_below below _ _).mpr ⟨live, inside, flag⟩)
  rcases ensureTable_absent tables.managed (tables.owned parent live) inside absentFlag flags with
    ⟨i, least, success, freeNext⟩ | ⟨exhausted, failed⟩
  · rw [free] at least freeNext
    have member := Finset.mem_Ico.mp (Finset.mem_coe.mp least.1)
    have nonempty : low < high := by omega
    rw [least.unique (isLeast_Ico nonempty), erase_Ico] at freeNext
    rcases ensureTable_owned tables below live inside small present with
      ⟨next, result, tablesNext, grown, liveNext⟩ | result
    · rw [result] at freeNext
      exact Or.inl ⟨nonempty, next, result, tablesNext, grown, liveNext, freeNext⟩
    · rw [result] at success
      exact absurd success Bool.false_ne_true
  · rw [free, Finset.Ico_eq_empty_iff, not_lt] at exhausted
    exact Or.inr ⟨exhausted, failed⟩

/-- `setup_kernel_mappings` under a PML4 whose last entry is absent takes two pages and writes
one leaf, or fails. -/
theorem setupKernelMappings_spec {s : PagingState} {held : Finset (BitVec 64)}
    (tables : OwnedTables s held) (unlinked : ¬ Live s.ram s.kernelPml4 (.pdpt 511))
    {low high : Nat} (free : (pool s.toMemoryState).free = Finset.Ico low high) :
    (low + 2 ≤ high ∧ ∃ grown, setupKernelMappings s s.kernelPml4 =
          (writeEntry grown (nodePage grown.ram grown.kernelPml4 (.pd 511 510)) 0 0x183#64, true) ∧
        OwnedTables grown held ∧ Extends s grown ∧
        (∀ n, Live grown.ram grown.kernelPml4 n ↔
          Live s.ram s.kernelPml4 n ∨ n = .pdpt 511 ∨ n = .pd 511 510) ∧
        (pool grown.toMemoryState).free = Finset.Ico (low + 2) high) ∨
      (high < low + 2 ∧ (setupKernelMappings s s.kernelPml4).2 = false) := by
  rw [setupKernelMappings_eq, ensureLeaf]
  have first := ensureTable_interval tables (Below.pdpt 511) trivial (by decide) unlinked free
    (show (3#64).toNat < 128 by decide) (by decide)
  rw [show nodePage s.ram s.kernelPml4 .pml4 = s.kernelPml4 from rfl] at first
  rcases first with ⟨lowest, next, result, tablesNext, grownNext, liveNext, freeNext⟩ |
    ⟨exhausted, result⟩
  · have parentLive : Live next.ram next.kernelPml4 (.pdpt 511) := (liveNext _).mpr (Or.inr rfl)
    have childAbsent : ¬ Live next.ram next.kernelPml4 (.pd 511 510) := by
      intro live
      rcases (liveNext _).mp live with old | new
      · exact unlinked old.1
      · exact Node.noConfusion new
    rw [result]
    simp only
    rw [show s.kernelPml4 = next.kernelPml4 from grownNext.root.symm,
      show tableOf (WordTable.read next.ram next.kernelPml4 511) =
        nodePage next.ram next.kernelPml4 (.pdpt 511) from rfl]
    rcases ensureTable_interval tablesNext (Below.pd 511 510) parentLive (by decide) childAbsent
        freeNext (show (3#64).toNat < 128 by decide) (by decide) with
      ⟨lowest, grown, result, tablesGrown, grownGrown, liveGrown, freeGrown⟩ | ⟨exhausted, result⟩
    · rw [result]
      simp only
      have page : tableOf (WordTable.read grown.ram (nodePage next.ram next.kernelPml4
          (.pdpt 511)) 510) = nodePage grown.ram grown.kernelPml4 (.pd 511 510) := by
        rw [← grownGrown.pages _ parentLive]
        rfl
      rw [page]
      refine Or.inl ⟨by omega, grown, rfl, tablesGrown, grownNext.trans grownGrown, fun n => ?_,
        freeGrown⟩
      rw [liveGrown n, liveNext n, or_assoc, grownNext.root]
    · rw [result]
      exact Or.inr ⟨by omega, rfl⟩
  · rw [result]
    exact Or.inr ⟨by omega, rfl⟩

/-! ### Init_Paging -/

/-- The state once page `i` has become the new PML4 with the boot entry copied into it. -/
def freshPml4 (s : PagingState) (i : Nat) : PagingState :=
  writeEntry
    (newPml4 { s with toMemoryState := claimed s.toMemoryState i } (pageAddress s.toMemoryState i))
    (pageAddress s.toMemoryState i) 0 0x2003#64

section Fresh

variable {s : PagingState} (managed : Managed s.toMemoryState) {i : Nat}
  (free : i ∈ (pool s.toMemoryState).free)
include managed free

/-- Beyond claiming the page, only the page itself is written. -/
theorem freshPml4_frame {x : BitVec 64}
    (outside : ¬ Within (pageAddress s.toMemoryState i) 4096 x) :
    (freshPml4 s i).ram x = (claimed s.toMemoryState i).ram x := by
  have aligned := aligned_pageAddress managed (IndexPool.lt_total free)
  rw [← WordTable.clear_of_not_within (claimed s.toMemoryState i).ram aligned outside]
  exact WordTable.write_of_not_within _ aligned (by decide) _ outside

theorem freshPml4_root {e : Nat} (inside : e < 512) :
    WordTable.read (freshPml4 s i).ram (freshPml4 s i).kernelPml4 e =
      if e = 0 then 0x2003#64 else 0#64 := by
  have aligned := aligned_pageAddress managed (IndexPool.lt_total free)
  have zero : WordTable.read (newPml4 { s with toMemoryState := claimed s.toMemoryState i }
      (pageAddress s.toMemoryState i)).ram (pageAddress s.toMemoryState i) e = 0#64 :=
    WordTable.read_of_zero aligned inside fun x close => WordTable.clear_of_within _ aligned close
  refine (read_write _ aligned aligned (by decide) inside _).trans ?_
  rw [zero]
  simp

theorem freshPml4_off_bitmap (x : BitVec 64) (low : 0x60000 ≤ x.toNat) (high : x.toNat < 0x80000) :
    (freshPml4 s i).ram x = (claimed s.toMemoryState i).ram x := by
  refine freshPml4_frame managed free fun close => ?_
  rw [within_page_iff managed (IndexPool.lt_total free)] at close
  omega

theorem managed_freshPml4 : Managed (freshPml4 s i).toMemoryState :=
  managed_congr (managed_claimed managed free) (freshPml4_off_bitmap managed free)

theorem free_freshPml4 :
    (pool (freshPml4 s i).toMemoryState).free = (pool s.toMemoryState).free.erase i :=
  (congrArg IndexPool.free (pool_congr (managed_claimed managed free)
    (freshPml4_off_bitmap managed free))).trans (free_claimed managed (IndexPool.lt_total free))

/-- The new PML4 is not the one of the boot code. -/
theorem freshPml4_ne_boot : (freshPml4 s i).kernelPml4 ≠ 0x1000#64 := by
  intro same
  have place := toNat_pageAddress managed (IndexPool.lt_total free)
  rw [show pageAddress s.toMemoryState i = 0x1000#64 from same, BitVec.toNat_ofNat] at place
  omega

theorem usedPage_freshPml4 : UsedPage (freshPml4 s i).toMemoryState (freshPml4 s i).kernelPml4 i :=
  usedPage_congr (managed_claimed managed free) (freshPml4_off_bitmap managed free)
    (usedPage_claimed_self managed (IndexPool.lt_total free))

theorem bootMapped_freshPml4 (mapped : BootMapped s.ram) : BootMapped (freshPml4 s i).ram := by
  have inside : i < s.totalPages.toNat := IndexPool.lt_total free
  refine bootMapped_congr (fun x low => ?_) mapped
  have outside := not_within_page managed inside (show x.toNat < 0x100000 by omega)
  rw [freshPml4_frame managed free outside]
  exact claimed_frame managed inside (Or.inl low) outside

/-- What a client held stays in use and is not a table. -/
theorem owned_freshPml4 (mapped : BootMapped s.ram) {held : Finset (BitVec 64)}
    (heldUsed : ∀ page ∈ held, ∃ j, UsedPage s.toMemoryState page j) :
    OwnedTables (freshPml4 s i) held := by
  have inside : i < s.totalPages.toNat := IndexPool.lt_total free
  have mappedFresh := bootMapped_freshPml4 managed free mapped
  have root {e : Nat} (inside : e < 512) := freshPml4_root managed free inside
  have tables := owned_fresh (managed_freshPml4 managed free) (usedPage_freshPml4 managed free)
    mappedFresh fun _ => root
  refine tables.hold (fun page member => ?_) fun n live member => ?_
  · obtain ⟨j, used⟩ := heldUsed page member
    exact ⟨j, usedPage_congr (managed_claimed managed free) (freshPml4_off_bitmap managed free)
      (usedPage_claimed managed inside used)⟩
  · obtain ⟨j, used⟩ := heldUsed _ member
    have place := toNat_usedPage managed used
    rcases (live_fresh mappedFresh (fun _ => root) n).mp live with rfl | rfl | rfl
    · exact not_usedPage_of_free managed free j used
    · rw [nodePage_fresh_pdpt fun _ => root, BitVec.toNat_ofNat] at place
      omega
    · rw [nodePage_fresh_pd mappedFresh fun _ => root, BitVec.toNat_ofNat] at place
      omega

end Fresh

theorem getCurrentPml4_boot {s : PagingState} (boot : s.cr3 = bootCr3) :
    getCurrentPml4 s = 0x1000#64 := by
  rw [getCurrentPml4, boot]
  decide

theorem initPaging_none {s : PagingState} (boot : s.cr3 = bootCr3)
    (none : getPage s = (s, 0#64)) :
    initPaging s = ({ s with kernelPml4 := 0#64 }, false) := by
  unfold initPaging
  simp only [getCurrentPml4_boot boot]
  rw [if_neg (by decide), none]
  simp only [if_true]

/-- With a page for the new PML4, the rest of `Init_Paging` is `setup_kernel_mappings` and the
switch to the new tables. -/
theorem initPaging_some {s : PagingState} (managed : Managed s.toMemoryState)
    (mapped : BootMapped s.ram) (boot : s.cr3 = bootCr3) {i : Nat}
    (least : IsLeast ((pool s.toMemoryState).free : Set Nat) i) :
    initPaging s =
      (switchPml4 (setupKernelMappings (freshPml4 s i) (freshPml4 s i).kernelPml4).1 0x1000#64,
        (setupKernelMappings (freshPml4 s i) (freshPml4 s i).kernelPml4).2) := by
  have inside : i < s.totalPages.toNat := IndexPool.lt_total least.1
  have aligned := aligned_pageAddress managed inside
  have different : pageAddress s.toMemoryState i ≠ 0x1000#64 := freshPml4_ne_boot managed least.1
  have mappedNew : BootMapped (newPml4 { s with toMemoryState := claimed s.toMemoryState i }
      (pageAddress s.toMemoryState i)).ram := by
    refine bootMapped_congr (fun x low => ?_) mapped
    have outside := not_within_page managed inside (show x.toNat < 0x100000 by omega)
    rw [newPml4]
    simp only
    rw [WordTable.clear_of_not_within _ aligned outside]
    exact claimed_frame managed inside (Or.inl low) outside
  rcases getPage_cases managed with ⟨j, leastJ, result⟩ | ⟨exhausted, -⟩
  · obtain rfl := least.unique leastJ
    unfold initPaging
    simp only [getCurrentPml4_boot boot]
    rw [if_neg (by decide), result]
    simp only [if_neg (pageAddress_ne_zero managed inside)]
    rw [copyBootMappings_eq mappedNew boot aligned different]
    rfl
  · have member := least.1
    rw [exhausted] at member
    exact absurd member (Finset.notMem_empty i)

/-- What `Init_Paging` does in any state of the allocator. With no page at all it leaves `CR3`
and memory alone; with one it switches to a PML4 of its own, under which the kernel's leaf has
been written or the tree has grown as far as there were pages. -/
theorem initPaging_cases {s : PagingState} (managed : Managed s.toMemoryState)
    (mapped : BootMapped s.ram) (boot : s.cr3 = bootCr3) {held : Finset (BitVec 64)}
    (heldUsed : ∀ page ∈ held, ∃ j, UsedPage s.toMemoryState page j) :
    (∃ i next fresh, IsLeast ((pool s.toMemoryState).free : Set Nat) i ∧
        (initPaging s).1 = { next with cr3 := next.kernelPml4 } ∧ OwnedTables next held ∧
        Grows (freshPml4 s i) next fresh ∧
        (((initPaging s).2 = true ∧ ∀ a b c, c < 512 → leafEntry next.ram next.kernelPml4 a b c =
            if a = 511 ∧ b = 510 ∧ c = 0 then 0x183#64
            else leafEntry (freshPml4 s i).ram (freshPml4 s i).kernelPml4 a b c) ∨
          ((initPaging s).2 = false ∧ Extends (freshPml4 s i) next))) ∨
      initPaging s = ({ s with kernelPml4 := 0#64 }, false) := by
  rcases getPage_cases managed with ⟨i, least, -⟩ | ⟨-, none⟩
  · have tables := owned_freshPml4 managed least.1 mapped heldUsed
    have different := freshPml4_ne_boot managed least.1
    obtain ⟨next, fresh, tablesNext, grows, cases⟩ := ensureLeaf_grows tables
      (show 511 < 512 by decide) (show 510 < 512 by decide) (show 0 < 512 by decide)
      (show (3#64).toNat < 128 by decide) (show hasFlag 3#64 pagePresent = true by decide)
      (show hasFlag 0x183#64 pageHuge = true by decide)
    rw [← setupKernelMappings_eq] at cases
    have switched : switchPml4 next 0x1000#64 = { next with cr3 := next.kernelPml4 } :=
      if_pos (grows.root.trans_ne different)
    refine Or.inl ⟨i, next, fresh, least, ?_, tablesNext, grows, ?_⟩
    · rw [initPaging_some managed mapped boot least, ← switched]
      rcases cases with ⟨result, -⟩ | ⟨result, -⟩
      · rw [result]
      · rw [result]
    · rw [initPaging_some managed mapped boot least]
      rcases cases with ⟨result, leaves⟩ | ⟨result, grown⟩
      · rw [result]
        exact Or.inl ⟨rfl, leaves⟩
      · rw [result]
        exact Or.inr ⟨rfl, grown⟩
  · exact Or.inr (initPaging_none boot none)

/-- The number of pages the memory map gives the allocator. -/
def detectedPages (ram : Memory) : Nat := (detectedEnd ram - 0x100000) / 4096

/-- The boot code's tables lie below the memory map. -/
theorem detectedPages_setUpBootTables (ram : Memory) :
    detectedPages (setUpBootTables ram) = detectedPages ram := by
  have same : ∀ x : BitVec 64, 0x5000 ≤ x.toNat → setUpBootTables ram x = ram x :=
    fun x above => setUpBootTables_frame ram above
  obtain ⟨count, table⟩ := entries_congr same
  have valid : CountValid (setUpBootTables ram) ↔ CountValid ram := by
    rw [CountValid, count]
    rfl
  rw [detectedPages, detectedEnd, table, detectedPages, detectedEnd]
  simp only [valid]

/-- `Init_Paging` succeeds exactly when there are three pages, and then its new tables are the
kernel's, under `CR3`. -/
theorem initPaging_spec {ram : Memory} (zeroed : ZeroedTables ram) :
    (3 ≤ detectedPages (setUpBootTables ram) ∧ ∃ grown,
        initPaging (bootPaging ram) = ({ writeEntry grown
          (nodePage grown.ram grown.kernelPml4 (.pd 511 510)) 0 0x183#64 with
            cr3 := grown.kernelPml4 }, true) ∧
        OwnedTables grown ∅ ∧ Extends (freshPml4 (bootPaging ram) 0) grown ∧
        (∀ n, Live grown.ram grown.kernelPml4 n ↔ (n = .pml4 ∨ n = .pdpt 0 ∨ n = .pd 0 0) ∨
          n = .pdpt 511 ∨ n = .pd 511 510) ∧
        (pool grown.toMemoryState).free =
          Finset.Ico 3 (detectedPages (setUpBootTables ram))) ∨
      (detectedPages (setUpBootTables ram) < 3 ∧ (initPaging (bootPaging ram)).2 = false) := by
  have managed : Managed (bootPaging ram).toMemoryState := managed_initMemory _
  have mapped := bootMapped_bootPaging zeroed
  have free : (pool (bootPaging ram).toMemoryState).free =
      Finset.Ico 0 (detectedPages (setUpBootTables ram)) := by
    rw [Nat.Ico_zero_eq_range]
    exact free_initMemory _
  rcases Nat.eq_zero_or_pos (detectedPages (setUpBootTables ram)) with zero | some
  · refine Or.inr ⟨by omega, ?_⟩
    rcases getPage_cases managed with ⟨i, least, -⟩ | ⟨-, result⟩
    · rw [free, zero] at least
      exact absurd least.1 (by simp)
    · rw [initPaging_none rfl result]
  · have least := isLeast_Ico some
    rw [← free] at least
    have freeFresh := free_freshPml4 managed least.1
    rw [free, erase_Ico] at freeFresh
    have tables : OwnedTables (freshPml4 (bootPaging ram) 0) ∅ :=
      owned_freshPml4 managed least.1 mapped (by simp)
    have live := live_fresh (bootMapped_freshPml4 managed least.1 mapped)
      fun _ inside => freshPml4_root managed least.1 inside
    have unlinked : ¬ Live (freshPml4 (bootPaging ram) 0).ram
        (freshPml4 (bootPaging ram) 0).kernelPml4 (.pdpt 511) := by
      rw [live]
      simp
    rw [initPaging_some managed mapped rfl least]
    rcases setupKernelMappings_spec tables unlinked freeFresh with
      ⟨enough, grown, result, tablesGrown, extended, liveGrown, freeGrown⟩ | ⟨few, failed⟩
    · refine Or.inl ⟨enough, grown, ?_, tablesGrown, extended, fun n => ?_, freeGrown⟩
      · have root : grown.kernelPml4 ≠ 0x1000#64 :=
          extended.root.trans_ne (freshPml4_ne_boot managed least.1)
        rw [result]
        simp only
        rw [switchPml4, if_pos (show (writeEntry grown (nodePage grown.ram grown.kernelPml4
          (.pd 511 510)) 0 0x183#64).kernelPml4 ≠ 0x1000#64 from root)]
        rfl
      · rw [liveGrown n, live n]
    · exact Or.inr ⟨few, failed⟩

/-- On a machine whose memory is zero there are pages enough. -/
theorem complete_blank : (initPaging (bootPaging fun _ => 0#8)).2 = true ∧
    257 < detectedPages (setUpBootTables fun _ => 0#8) := by
  have enough : 257 < detectedPages (setUpBootTables fun _ => 0#8) := by
    rw [detectedPages_setUpBootTables, detectedPages, detectedEnd_blank]
    decide
  refine ⟨?_, enough⟩
  rcases initPaging_spec zeroedTables_blank with
    ⟨-, grown, result, -⟩ | ⟨few, -⟩
  · rw [result]
  · omega

end M12
