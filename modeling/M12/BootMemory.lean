/-
This file proves that `Init_Memory` is safe for any boot data.

What it reads of the memory map lies in the page the boot loader has put it in,
since no more than 50 entries are looked at. What it writes is the bitmap, whose
size rests on the 4 GB cap that every way through the parser has: it ends below
0x80000, under the managed pages and away from everything else the kernel has
placed in low memory. The reservations name ranges below 1 MB only, so none of
them marks a page.
-/

import M12.FreePages

namespace M12

open ByteMemory

/-! ### The table -/

/-- The addresses of the table that `Init_Memory` reads: the count, and the entries when the count
is accepted. -/
def TableAddress (ram : Memory) (x : BitVec 64) : Prop :=
  Within memoryMapLocation 2 x ∨
    CountValid ram ∧ ∃ i < (entryCount ram).toNat, Within (entryAddress i) 24 x

/-- The table that is read lies in one page. -/
theorem tableAddress_bounds {ram : Memory} {x : BitVec 64} (read : TableAddress ram x) :
    0x5000 ≤ x.toNat ∧ x.toNat < 0x6000 := by
  rcases read with count | ⟨valid, i, inside, entry⟩
  · rw [within_iff (by decide), memoryMapLocation, BitVec.toNat_ofNat] at count
    omega
  · have few : i < 50 := Nat.lt_of_lt_of_le inside valid.2
    have place := toNat_entryAddress (show i < 2 ^ 16 by omega)
    rw [within_iff (by omega), place] at entry
    omega

/-- What the parser finds depends on nothing else. -/
theorem safeParseMemoryMap_congr {ram other : Memory}
    (same : ∀ x, TableAddress ram x → other x = ram x) (memoryEnd : BitVec 64) :
    safeParseMemoryMap other 0x100000#64 memoryEnd =
      safeParseMemoryMap ram 0x100000#64 memoryEnd := by
  have count : entryCount other = entryCount ram := by
    refine load_congr fun offset inside => same _ (Or.inl ?_)
    exact within_add _ (by omega) (by omega)
  have validIff : CountValid other ↔ CountValid ram := by rw [CountValid, CountValid, count]
  by_cases valid : CountValid ram
  · have table : entries other = entries ram := by
      rw [entries, entries, count]
      refine List.map_congr_left fun i inside => entryAt_congr fun x near => same x ?_
      exact Or.inr ⟨valid, i, List.mem_range.mp inside, near⟩
    cases chosen : largestEntry (entries ram) with
    | none =>
      rw [safeParseMemoryMap_of_none ram memoryEnd (Or.inr chosen),
        safeParseMemoryMap_of_none other memoryEnd (Or.inr (table ▸ chosen))]
    | some entry =>
      rw [safeParseMemoryMap_of_largest ram memoryEnd valid chosen,
        safeParseMemoryMap_of_largest other memoryEnd (validIff.mpr valid) (table ▸ chosen)]
  · rw [safeParseMemoryMap_of_none ram memoryEnd (Or.inl valid),
      safeParseMemoryMap_of_none other memoryEnd (Or.inl fun both => valid (validIff.mp both))]

/-! ### The bitmap -/

/-- The addresses of the bitmap's bytes. -/
def BitmapAddress (s : MemoryState) (x : BitVec 64) : Prop :=
  Within s.memoryMap (calculateBitmapSize s.totalPages).toNat x

theorem bitmapAddress_iff {s : MemoryState} (managed : Managed s) (x : BitVec 64) :
    BitmapAddress s x ↔ Within s.memoryMap ((s.totalPages.toNat + 7) / 8) x := by
  rw [BitmapAddress, toNat_calculateBitmapSize s.totalPages (totalPages_lt managed)]

/-- The bitmap is all that is written. -/
theorem initMemory_ram (ram : Memory) {x : BitVec 64}
    (outside : ¬ BitmapAddress (initMemory (bootMemory ram)) x) :
    (initMemory (bootMemory ram)).ram x = ram x := by
  have few := totalPages_lt (managed_initMemory ram)
  rw [bitmapAddress_iff (managed_initMemory ram)] at outside
  rw [initMemory_eq] at few outside ⊢
  show fill ram 0x60000#64 0xFF#8
    (calculateBitmapSize (setUpBitmap (bootMemory ram)).totalPages).toNat x = ram x
  rw [toNat_calculateBitmapSize _ few]
  exact fill_of_not_within ram _ (by omega) outside

/-! ### Boot data of any kind -/

/-- What `Init_Memory` reads and writes is in its place, and the allocator starts out in order. -/
structure BootSafe (ram : Memory) (s : MemoryState) : Prop where
  /-- The table lies in its page, and nothing else of memory bears on what the parser finds. -/
  tableInside : ∀ x, TableAddress ram x → 0x5000 ≤ x.toNat ∧ x.toNat < 0x6000
  tableOnly : ∀ other, (∀ x, TableAddress ram x → other x = ram x) →
    safeParseMemoryMap other 0x100000#64 0x20000000#64 =
      safeParseMemoryMap ram 0x100000#64 0x20000000#64
  memoryEnd : 0x100000 < s.memoryEnd.toNat ∧ s.memoryEnd.toNat ≤ 2 ^ 32
  totalPages : s.totalPages.toNat * 4096 ≤ s.memoryEnd.toNat - 0x100000
  bitmapInside : ∀ x, BitmapAddress s x → 0x60000 ≤ x.toNat ∧ x.toNat < 0x80000
  bitmapOnly : ∀ x, ¬ BitmapAddress s x → s.ram x = ram x
  /-- The boot page tables, the memory map, the kernel and the video memory are elsewhere. -/
  bitmapApart : ∀ x, BitmapAddress s x →
    ¬ (0x1000 ≤ x.toNat ∧ x.toNat < 0x5000) ∧ ¬ (0x5000 ≤ x.toNat ∧ x.toNat < 0x6000) ∧
      ¬ (0x10000 ≤ x.toNat ∧ x.toNat < 0x20000) ∧ ¬ (0xB8000 ≤ x.toNat ∧ x.toNat < 0xC0000)
  bitmapOffPages : ∀ x, BitmapAddress s x →
    ∀ i < s.totalPages.toNat, ¬ Within (pageAddress s i) 4096 x
  /-- The end of the reservation for the bitmap does not wrap, and no reservation has an effect. -/
  reservationExact : (0x60000#64 + calculateBitmapSize s.totalPages).toNat =
    0x60000 + (calculateBitmapSize s.totalPages).toNat
  reservesNothing : s = setUpBitmap (bootMemory ram)
  allFree : ∀ i < s.totalPages.toNat, pageFree s i = true
  usedPages : s.usedPages = 0#64

/-- Whatever the boot loader has left in memory, `Init_Memory` is safe. -/
theorem initMemory_safe (ram : Memory) : BootSafe ram (initMemory (bootMemory ram)) := by
  have managed := managed_initMemory ram
  have few := totalPages_lt managed
  have size := toNat_calculateBitmapSize (initMemory (bootMemory ram)).totalPages few
  have inside : ∀ x, BitmapAddress (initMemory (bootMemory ram)) x →
      0x60000 ≤ x.toNat ∧ x.toNat < 0x80000 := fun x here =>
    within_bitmap managed ((bitmapAddress_iff managed x).mp here)
  refine ⟨fun x => tableAddress_bounds, fun other same => safeParseMemoryMap_congr same _,
    ⟨managed.endAbove, managed.endBelow⟩, ?_, inside, fun x => initMemory_ram ram,
    fun x here => ?_, fun x here i inRange => not_within_page managed inRange ?_, ?_,
    initMemory_eq ram, fun i inRange => ?_, ?_⟩
  · rw [managed.totalPages]
    omega
  · have bounds := inside x here
    omega
  · have bounds := inside x here
    omega
  · rw [BitVec.toNat_add, size, BitVec.toNat_ofNat]
    omega
  · have member : i ∈ (pool (initMemory (bootMemory ram))).free := by
      rw [free_initMemory, Finset.mem_range, ← setUpBitmap_totalPages, ← initMemory_eq]
      exact inRange
    exact ((mem_free _ i).mp member).2
  · rw [initMemory_eq]
    rfl

end M12
